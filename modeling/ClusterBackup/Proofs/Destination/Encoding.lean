import ClusterBackup.Proofs.Destination.Addresses
/-!
# Addresses in buckets as an encoding

An address in a bucket starts with one scheme, whether the name of the bucket has it or not. What
follows is decoded from its end: the second of the stamp, and before it the bucket and the cluster
with a slash between them (`bucketAddress_faithful`).
-/

namespace ClusterBackup

namespace Destination

variable {bucket bucket' cluster cluster' : String} {t t' : Timestamp}

def withoutScheme (bucket : String) : String :=
  if bucketScheme.toList.isPrefixOf bucket.toList then
    String.ofList (bucket.toList.drop bucketScheme.toList.length)
  else bucket

theorem withScheme_of_scheme (h : bucketScheme.toList <+: bucket.toList) :
    withScheme bucket = bucket :=
  if_pos (List.isPrefixOf_iff_prefix.2 h)

theorem withScheme_of_noScheme (h : ¬ bucketScheme.toList <+: bucket.toList) :
    withScheme bucket = bucketScheme ++ bucket :=
  if_neg (mt List.isPrefixOf_iff_prefix.1 h)

/-- Of the names of a bucket with and without the scheme, the one has the scheme in front. -/
theorem withScheme_eq (bucket : String) :
    withScheme bucket = bucketScheme ++ withoutScheme bucket := by
  unfold withoutScheme
  split
  · rename_i hscheme
    have hprefix := List.isPrefixOf_iff_prefix.1 hscheme
    rw [withScheme_of_scheme hprefix]
    apply String.toList_inj.1
    rw [String.toList_append, String.toList_ofList]
    exact (List.prefix_iff_eq_append.1 hprefix).symm
  · rename_i hscheme
    exact withScheme_of_noScheme (mt List.isPrefixOf_iff_prefix.2 hscheme)

theorem withScheme_scheme_append (h : ¬ bucketScheme.toList <+: bucket.toList) :
    withScheme (bucketScheme ++ bucket) = withScheme bucket := by
  have hprefix : bucketScheme.toList <+: (bucketScheme ++ bucket).toList := by
    rw [String.toList_append]
    exact List.prefix_append _ _
  rw [withScheme_of_scheme hprefix, withScheme_of_noScheme h]

theorem place_eq_iff : place bucket cluster = place bucket' cluster' ↔
    withoutScheme bucket ++ "/" ++ cluster = withoutScheme bucket' ++ "/" ++ cluster' := by
  unfold place
  rw [withScheme_eq, withScheme_eq]
  simp only [String.append_assoc]
  exact String.append_right_inj bucketScheme

/-- The address in a bucket starts with the scheme, does not change when the scheme is put in front
of the name of the bucket, and can be decoded: it tells the bucket without the scheme, the cluster
behind a slash, and the second on the wall clock, and nothing else. The names of buckets and
clusters are any texts: they may have slashes, and end in what looks like a stamp. -/
theorem bucketAddress_faithful (bucket bucket' cluster cluster' : String) (t t' : Timestamp) :
    bucketScheme.toList <+: (bucketAddress bucket cluster t).toList ∧
      (¬ bucketScheme.toList <+: bucket.toList →
        bucketAddress (bucketScheme ++ bucket) cluster t = bucketAddress bucket cluster t) ∧
      (bucketAddress bucket cluster t = bucketAddress bucket' cluster' t' ↔
        withoutScheme bucket ++ "/" ++ cluster = withoutScheme bucket' ++ "/" ++ cluster' ∧
          t.SameSecond t') := by
  refine ⟨scheme_prefix_bucketAddress bucket cluster t, fun hscheme => ?_, ?_⟩
  · rw [bucketAddress_eq, bucketAddress_eq, place, place, withScheme_scheme_append hscheme]
  · rw [bucketAddress_inj, place_eq_iff]

/-- In the year 987, which is written with three digits, the slash in the name of a cluster may as
well belong to the bucket, but what looks like a stamp stays apart from the stamp behind it. -/
theorem bucketAddress_faithful_early :
    ∃ t, Timestamp.ofJson (.str "0987-01-01T00:00:00Z") = .ok t ∧
      ¬ bucketScheme.toList <+: "dumps".toList ∧
      bucketAddress (bucketScheme ++ "dumps") "eu/main-987-01-01-00:00:00" t =
        bucketAddress "dumps" "eu/main-987-01-01-00:00:00" t ∧
      bucketAddress "dumps" "eu/main-987-01-01-00:00:00" t =
        bucketAddress "s3://dumps/eu" "main-987-01-01-00:00:00" t ∧
      bucketAddress "dumps" "eu/main-987-01-01-00:00:00" t ≠ bucketAddress "dumps" "eu/main" t := by
  obtain ⟨t, ht⟩ : ∃ t, Timestamp.ofJson (.str "0987-01-01T00:00:00Z") = .ok t := ⟨_, rfl⟩
  have hscheme : ¬ bucketScheme.toList <+: "dumps".toList := by decide
  have hmoved := bucketAddress_faithful "dumps" "s3://dumps/eu" "eu/main-987-01-01-00:00:00"
    "main-987-01-01-00:00:00" t t
  have hshort := bucketAddress_faithful "dumps" "dumps" "eu/main-987-01-01-00:00:00" "eu/main" t t
  refine ⟨t, ht, hscheme, hmoved.2.1 hscheme, hmoved.2.2.2 ⟨by decide, rfl, rfl, rfl, rfl⟩, ?_⟩
  intro hsame
  exact absurd (hshort.2.2.1 hsame).1 (by decide)

end Destination

end ClusterBackup
