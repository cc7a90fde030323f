import ClusterBackup.Proofs.Calendar.Stamps
import ClusterBackup.Proofs.Cluster.Buckets
import ClusterBackup.Proofs.Fleet.Basic
/-!
# Addresses that agree

The address of a backup in a bucket is made of the bucket, the name of the cluster, and the second
on the wall clock in which the backup was created. Neither its namespace nor its name is part of it.
So two backups are written to one address exactly if they agree in these three
(`bucket_addresses_agree_iff`).

The address on a claim is told from one in a bucket by its scheme.
-/

namespace ClusterBackup

open Api (Server)

namespace Destination

variable {bucket bucket' cluster cluster' : String} {t t' : Timestamp}

/-! ## Addresses in buckets -/

def withScheme (bucket : String) : String :=
  if bucketScheme.toList.isPrefixOf bucket.toList then bucket else bucketScheme ++ bucket

def place (bucket cluster : String) : String := withScheme bucket ++ "/" ++ cluster

theorem bucketAddress_eq (bucket cluster : String) (t : Timestamp) :
    bucketAddress bucket cluster t =
      place bucket cluster ++ "-" ++ t.stampText ++ "-xtrabackup.stream" := by
  unfold bucketAddress place withScheme
  dsimp only
  split
  · rfl
  · simp only [String.append_assoc]

/-- The address in a bucket tells its place and the second of its stamp. -/
theorem bucketAddress_inj : bucketAddress bucket cluster t = bucketAddress bucket' cluster' t' ↔
    place bucket cluster = place bucket' cluster' ∧ t.SameSecond t' := by
  have hdash : "-".toList = ['-'] := rfl
  rw [bucketAddress_eq, bucketAddress_eq, String.append_left_inj, ← String.toList_inj,
    ← String.toList_inj, ← Timestamp.append_stamp_inj]
  simp [hdash]

/-- The place tells the bucket and the cluster, if the names of the clusters have no slash. -/
theorem place_inj (hc : '/' ∉ cluster.toList) (hc' : '/' ∉ cluster'.toList) :
    place bucket cluster = place bucket' cluster' ↔
      withScheme bucket = withScheme bucket' ∧ cluster = cluster' := by
  have hslash : "/".toList = ['/'] := rfl
  rw [← String.toList_inj, ← String.toList_inj, ← String.toList_inj,
    ← append_cons_inj_of_last hc hc']
  simp [place, hslash]

theorem scheme_prefix_withScheme (bucket : String) :
    bucketScheme.toList <+: (withScheme bucket).toList := by
  unfold withScheme
  split
  · rename_i hscheme
    exact List.isPrefixOf_iff_prefix.1 hscheme
  · rw [String.toList_append]
    exact List.prefix_append _ _

theorem scheme_prefix_bucketAddress (bucket cluster : String) (t : Timestamp) :
    bucketScheme.toList <+: (bucketAddress bucket cluster t).toList := by
  rw [bucketAddress_eq, place]
  simp only [String.toList_append, List.append_assoc]
  exact (scheme_prefix_withScheme bucket).trans (List.prefix_append _ _)

/-! ## Addresses by profile -/

theorem address_of_ofProfile {b : Backup} {stored : Bucket} {claim : String} {d : Destination}
    (h : ofProfile b (.bucket stored) claim = .ok d) :
    ∃ name, stored.name = .str name ∧ d.address = bucketAddress name b.cluster.text b.createdAt ∧
      d.claim = none ∧ d.bucket = some stored := by
  unfold ofProfile bucketAddressOf at h
  dsimp only at h
  cases hname : stored.name with
  | str name =>
    rw [hname] at h
    cases h
    exact ⟨name, rfl, rfl, rfl, rfl⟩
  | _ =>
    rw [hname] at h
    cases h

/-- An address with the scheme of claims is on the claim of a filesystem profile. -/
theorem eq_onClaim_of_ofProfile {b : Backup} {profile : Profile} {claim name : String}
    {d : Destination} (h : ofProfile b profile claim = .ok d)
    (hd : d.address = claimScheme ++ name) :
    d = onClaim name ∧ name = claim ∧ ∃ template, profile = .filesystem template := by
  cases profile with
  | filesystem template =>
    cases h
    obtain rfl : claim = name := (String.append_right_inj claimScheme).1 hd
    exact ⟨rfl, rfl, template, rfl⟩
  | bucket stored =>
    obtain ⟨bucket, -, haddress, -⟩ := address_of_ofProfile h
    have hprefix := scheme_prefix_bucketAddress bucket b.cluster.text b.createdAt
    rw [← haddress, hd, String.toList_append] at hprefix
    -- The two schemes have different first letters.
    obtain ⟨rest, hrest⟩ := hprefix
    cases hrest
  | unknown kind => cases h

end Destination

/-! ## Backups on a server -/

open Destination (place withScheme)

variable {τ : Type}

/-- The backup that is stored under a key and the plan for it, where there is one. -/
def planOn (settings : Settings τ) (s : Server) (key : ObjectKey) : Option (Backup × Plan) :=
  match (s.answer (.getBackup key.ns key.name)).1 with
  | .error _ => none
  | .ok object =>
    match Backup.ofJson object with
    | .error _ => none
    | .ok b =>
      match planFor settings b (s.answer (.listClusters b.ns)).1 with
      | .error _ => none
      | .ok p => some (b, p)

theorem ofProfile_of_planOn {settings : Settings τ} {s : Server} {key : ObjectKey} {b : Backup}
    {p : Plan} (h : planOn settings s key = some (b, p)) :
    Destination.ofProfile b p.profile settings.claimName = .ok p.destination := by
  unfold planOn at h
  split at h
  · cases h
  · split at h
    · cases h
    · split at h
      · cases h
      · rename_i hplan
        cases h
        cases hlisting : (s.answer (.listClusters b.ns)).1 with
        | error f =>
          rw [hlisting] at hplan
          cases hplan
        | ok listing =>
          rw [hlisting] at hplan
          exact (planFor_ok hplan).2.2

/-- Two backups that go into buckets have one address exactly if the bucket, with its scheme, and
the cluster make the same text and the backups were created in the same second of the wall clock.
Where the names of the clusters have no slash, the bucket and the cluster have to be the same. The
keys of the backups do not matter. -/
theorem bucket_addresses_agree_iff {settings settings' : Settings τ} {s s' : Server}
    {key key' : ObjectKey} {b b' : Backup} {p p' : Plan} {bucket bucket' : Bucket}
    (h : planOn settings s key = some (b, p)) (h' : planOn settings' s' key' = some (b', p'))
    (hp : p.profile = .bucket bucket) (hp' : p'.profile = .bucket bucket') :
    ∃ name name', bucket.name = .str name ∧ bucket'.name = .str name' ∧
      (p.destination.address = p'.destination.address ↔
        place name b.cluster.text = place name' b'.cluster.text ∧
          b.createdAt.SameSecond b'.createdAt) ∧
      ('/' ∉ b.cluster.text.toList → '/' ∉ b'.cluster.text.toList →
        (p.destination.address = p'.destination.address ↔
          withScheme name = withScheme name' ∧ b.cluster.text = b'.cluster.text ∧
            b.createdAt.SameSecond b'.createdAt)) := by
  have hd := ofProfile_of_planOn h
  have hd' := ofProfile_of_planOn h'
  rw [hp] at hd
  rw [hp'] at hd'
  obtain ⟨name, hname, haddress, -⟩ := Destination.address_of_ofProfile hd
  obtain ⟨name', hname', haddress', -⟩ := Destination.address_of_ofProfile hd'
  have hagree : p.destination.address = p'.destination.address ↔
      place name b.cluster.text = place name' b'.cluster.text ∧
        b.createdAt.SameSecond b'.createdAt := by
    rw [haddress, haddress']
    exact Destination.bucketAddress_inj
  refine ⟨name, name', hname, hname', hagree, fun hc hc' => ?_⟩
  rw [hagree, Destination.place_inj hc hc', and_assoc]

/-! ## Two backups of one second -/

namespace Twins

def backup (name : String) : Json :=
  .obj [("metadata", .obj [("namespace", .str "apps"), ("name", .str name), ("uid", .str name),
      ("creationTimestamp", .str "2024-01-01T00:00:00Z"), ("resourceVersion", .str "1")]),
    ("spec", .obj [("targetCluster", .str "main"), ("storageProfile", .str "s3")])]

def server : Server :=
  { Server.empty with
    backups := (Table.empty.insert (.ofTexts "apps" "nightly") (backup "nightly")).insert
      (.ofTexts "apps" "weekly") (backup "weekly")
    clusters := [(.text "apps", Nightly.cluster)] }

def target? (name : String) : Option (Profile × String) :=
  (planOn (.usual : Settings Rat) server (.ofTexts "apps" name)).map fun r =>
    (r.2.profile, r.2.destination.address)

theorem plan_of_target {name address : String} {profile : Profile}
    (h : target? name = some (profile, address)) :
    ∃ b p, planOn (.usual : Settings Rat) server (.ofTexts "apps" name) = some (b, p) ∧
      p.profile = profile ∧ p.destination.address = address := by
  obtain ⟨⟨b, p⟩, hplan, htarget⟩ := Option.map_eq_some_iff.1 h
  cases htarget
  exact ⟨b, p, hplan, rfl, rfl⟩

def bucket : Bucket := ⟨.str "dumps", .str "", .null, .null⟩

theorem target_nightly : target? "nightly" =
    some (.bucket bucket, "s3://dumps/main-2024-01-01-00:00:00-xtrabackup.stream") := by
  decide +kernel

theorem target_weekly : target? "weekly" =
    some (.bucket bucket, "s3://dumps/main-2024-01-01-00:00:00-xtrabackup.stream") := by
  decide +kernel

end Twins

/-- Different backups can have one address in a bucket. -/
theorem bucket_addresses_of_twins : ¬ ∀ (key key' : ObjectKey) (b b' : Backup) (p p' : Plan)
    (bucket bucket' : Bucket), (key == key') = false →
      planOn (.usual : Settings Rat) Twins.server key = some (b, p) →
      planOn (.usual : Settings Rat) Twins.server key' = some (b', p') →
      p.profile = .bucket bucket → p'.profile = .bucket bucket' →
      p.destination.address ≠ p'.destination.address := by
  intro hall
  obtain ⟨b, p, h, hp, haddress⟩ := Twins.plan_of_target Twins.target_nightly
  obtain ⟨b', p', h', hp', haddress'⟩ := Twins.plan_of_target Twins.target_weekly
  exact hall _ _ b b' p p' _ _ rfl h h' hp hp' (haddress.trans haddress'.symm)

/-- The nightly and the weekly backup have one address, so they were created in one second. -/
theorem bucket_addresses_agree_iff_nightly : ∃ b p b' p',
    planOn (.usual : Settings Rat) Twins.server (.ofTexts "apps" "nightly") = some (b, p) ∧
      planOn (.usual : Settings Rat) Twins.server (.ofTexts "apps" "weekly") = some (b', p') ∧
      p.destination.address = p'.destination.address ∧ b.createdAt.SameSecond b'.createdAt := by
  obtain ⟨b, p, h, hp, haddress⟩ := Twins.plan_of_target Twins.target_nightly
  obtain ⟨b', p', h', hp', haddress'⟩ := Twins.plan_of_target Twins.target_weekly
  obtain ⟨name, name', -, -, hagree, -⟩ := bucket_addresses_agree_iff h h' hp hp'
  have hsame := haddress.trans haddress'.symm
  exact ⟨b, p, b', p', h, h', hsame, (hagree.1 hsame).2⟩

end ClusterBackup
