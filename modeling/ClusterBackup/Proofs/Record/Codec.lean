import ClusterBackup.Proofs.Json.Schema
import ClusterBackup.Proofs.Record.RoundTrip
/-!
# What the stored form of a record keeps

The records that are read are just those that are read back from their stored form
(`Record.ofJson_toJson_iff`): the reader replaces what does not count as given, and it finds nothing
more to replace in what it has written. Where the fields of a record are texts there is no null
anywhere in its stored form. `codec_keeps_records` says both.
-/

namespace ClusterBackup

/-! ## Values without null -/

namespace Json

mutual

/-- The value is not null, and no null occurs in it. -/
def nullFree : Json → Bool
  | null => false
  | arr items => itemsNullFree items
  | obj members => membersNullFree members
  | _ => true

def itemsNullFree : List Json → Bool
  | [] => true
  | a :: as => nullFree a && itemsNullFree as

def membersNullFree : List (String × Json) → Bool
  | [] => true
  | (_, a) :: as => nullFree a && membersNullFree as

end

theorem nullFree_obj {members : List (String × Json)} :
    (obj members).nullFree = true ↔ ∀ m ∈ members, m.2.nullFree = true := by
  rw [nullFree]
  induction members with
  | nil => simp [membersNullFree]
  | cons m ms ih => simp [membersNullFree, ih]

theorem nullFree_of_describes {j : Json} (h : Schema.text.describes j = true) :
    j.nullFree = true := by
  cases j with
  | str _ => rfl
  | _ => cases h

theorem nullFree_of_admits {j : Json} (h : Schema.text.admits j = true)
    (hn : j.isNull = false) : j.nullFree = true := by
  rw [Schema.admits, hn, Bool.false_or] at h
  exact nullFree_of_describes h

theorem orBlank_of_describes {j : Json} (h : Schema.text.describes j = true) :
    j.orBlank = j := by
  cases j with
  | str t => exact orBlank_str t
  | _ => cases h

end Json

/-! ## Buckets -/

/-- The fields of the bucket are texts; the region and the endpoint may be null. -/
structure Bucket.IsTextual (b : Bucket) : Prop where
  name : Schema.text.describes b.name = true
  credentials : Schema.text.describes b.credentials = true
  region : Schema.text.admits b.region = true
  endpoint : Schema.text.admits b.endpoint = true

namespace Bucket.IsTextual

variable {b : Bucket}

theorem filled (h : b.IsTextual) : b.Filled :=
  ⟨Json.orBlank_of_describes h.name, Json.orBlank_of_describes h.credentials⟩

theorem nullFree_toJson (h : b.IsTextual) : b.toJson.nullFree = true := by
  rw [toJson, Json.nullFree_obj]
  intro m hm
  obtain ⟨hmem, hpresent⟩ := List.mem_filter.1 hm
  have hn : m.2.isNull = false := by simpa using hpresent
  simp only [List.mem_cons, List.not_mem_nil, or_false] at hmem
  rcases hmem with rfl | rfl | rfl | rfl
  · exact Json.nullFree_of_describes h.name
  · exact Json.nullFree_of_describes h.credentials
  · exact Json.nullFree_of_admits h.region hn
  · exact Json.nullFree_of_admits h.endpoint hn

end Bucket.IsTextual

/-! ## Records -/

namespace Record

/-- The state counts as given, and the other fields that every record has are blank or hold
something that does. -/
structure Filled (r : Record) : Prop where
  state : r.state.given = true
  destination : r.destination.orBlank = r.destination
  profile : r.profile.orBlank = r.profile
  bucket : ∀ bucket, r.bucket = some bucket → bucket.Filled

variable {r : Record}

structure ReadFrom (r : Record) (raw : Json) : Prop where
  given : r.state.given = true
  state : raw.member "state" = .ok r.state
  destination : ∃ value, raw.member "destination" = .ok value ∧ r.destination = value.orBlank
  profile : ∃ value, raw.member "storageProfile" = .ok value ∧ r.profile = value.orBlank
  bucket : ∃ value, raw.member "objectStorage" = .ok value ∧
    ∀ bucket, r.bucket = some bucket → value.given = true ∧ Bucket.ofJson value = .ok bucket
  completedAt : raw.member "completedAt" = .ok r.completedAt

theorem readFrom_of_ofJson {raw : Json} (h : ofJson raw = .ok (some r)) : r.ReadFrom raw := by
  unfold ofJson at h
  split at h
  · cases h
  · obtain ⟨state, hstate, h⟩ := bind_eq_ok.1 h
    split at h
    · cases h
    · rename_i hgiven
      simp only [bind_eq_ok] at h
      obtain ⟨stored, hstored, destination, hdestination, profile, hprofile, h⟩ := h
      have hstate' : state.given = true := by simpa using hgiven
      split at h
      · rename_i hbucket
        obtain ⟨bucket, hread, h⟩ := bind_eq_ok.1 h
        obtain ⟨completedAt, hcompleted, h⟩ := bind_eq_ok.1 h
        cases h
        refine ⟨hstate', hstate, ⟨_, hdestination, rfl⟩, ⟨_, hprofile, rfl⟩, ⟨_, hstored, ?_⟩,
          hcompleted⟩
        rintro found rfl
        cases hb : Bucket.ofJson stored with
        | error e =>
          rw [hb] at hread
          cases hread
        | ok b =>
          rw [hb] at hread
          cases hread
          exact ⟨hbucket, rfl⟩
      · obtain ⟨bucket, hnone, h⟩ := bind_eq_ok.1 h
        obtain ⟨completedAt, hcompleted, h⟩ := bind_eq_ok.1 h
        cases hnone
        cases h
        refine ⟨hstate', hstate, ⟨_, hdestination, rfl⟩, ⟨_, hprofile, rfl⟩, ⟨_, hstored, ?_⟩,
          hcompleted⟩
        rintro found ⟨⟩

theorem filled_of_ofJson {raw : Json} (h : ofJson raw = .ok (some r)) : r.Filled := by
  have hr := readFrom_of_ofJson h
  obtain ⟨destination, -, hdestination⟩ := hr.destination
  obtain ⟨profile, -, hprofile⟩ := hr.profile
  obtain ⟨stored, -, hstored⟩ := hr.bucket
  refine ⟨hr.given, ?_, ?_, fun bucket hb => Bucket.filled_of_ofJson (hstored bucket hb).2⟩
  · rw [hdestination, Json.orBlank_orBlank]
  · rw [hprofile, Json.orBlank_orBlank]

/-- What is read back as it was written is what the reader makes at all. -/
theorem ofJson_toJson_iff : ofJson r.toJson = .ok (some r) ↔ r.Filled :=
  ⟨filled_of_ofJson, fun h => ofJson_toJson h.state h.destination h.profile h.bucket⟩

/-- The state is a text that is not empty, and the other fields are texts; the time of completion
may be null, and there may be no bucket. -/
structure IsTextual (r : Record) : Prop where
  state : Schema.text.describes r.state = true
  given : r.state.given = true
  destination : Schema.text.describes r.destination = true
  profile : Schema.text.describes r.profile = true
  bucket : ∀ bucket, r.bucket = some bucket → bucket.IsTextual
  completedAt : Schema.text.admits r.completedAt = true

theorem IsTextual.filled (h : r.IsTextual) : r.Filled where
  state := h.given
  destination := Json.orBlank_of_describes h.destination
  profile := Json.orBlank_of_describes h.profile
  bucket bucket hb := (h.bucket bucket hb).filled

theorem IsTextual.nullFree_toJson (h : r.IsTextual) : r.toJson.nullFree = true := by
  obtain ⟨state, destination, profile, bucket, completedAt⟩ := r
  have hfields : ∀ m ∈ [("state", state), ("destination", destination),
      ("storageProfile", profile)], m.2.nullFree = true := by
    simpa using ⟨Json.nullFree_of_describes h.state, Json.nullFree_of_describes h.destination,
      Json.nullFree_of_describes h.profile⟩
  rw [toJson, Json.nullFree_obj]
  intro m hm
  rw [List.mem_append, List.mem_append] at hm
  rcases hm with (hm | hm) | hm
  · exact hfields m hm
  · cases bucket with
    | none => cases hm
    | some bucket =>
      rw [List.mem_singleton.1 hm]
      exact (h.bucket bucket rfl).nullFree_toJson
  · split at hm
    · cases hm
    · rename_i hn
      rw [List.mem_singleton.1 hm]
      exact Json.nullFree_of_admits h.completedAt (by simpa using hn)

end Record

/-- The stored form of a record loses nothing. Whatever was read, of fields of any kind, is read
back from its stored form. A record of texts is read back as well, its stored form holds no null,
and what is read back has the same stored form again. -/
theorem codec_keeps_records :
    (∀ (raw : Json) (r : Record), Record.ofJson raw = .ok (some r) →
      Record.ofJson r.toJson = .ok (some r)) ∧
    ∀ r : Record, r.IsTextual →
      Record.ofJson r.toJson = .ok (some r) ∧ r.toJson.nullFree = true ∧
        (Record.ofJson r.toJson).map (Option.map Record.toJson) = .ok (some r.toJson) := by
  constructor
  · intro raw r h
    exact Record.ofJson_toJson_iff.2 (Record.filled_of_ofJson h)
  · intro r h
    have hback := Record.ofJson_toJson_iff.2 h.filled
    refine ⟨hback, h.nullFree_toJson, ?_⟩
    rw [hback]
    rfl

namespace Nightly

/-- A record as nobody should store it: kinds that are not documented, blanks and gaps. -/
def oddRecord : Json :=
  .obj [("storageProfile", .bool false), ("state", .int 7), ("destination", .arr [.null]),
    ("objectStorage", .obj [("bucket", .null), ("region", .str ""), ("endpointUrl", .obj [])])]

def bucketRecord : Record where
  state := .str "Succeeded"
  destination := .str "s3://backups/pxc-20240501-xtrabackup.stream"
  profile := .str "offsite"
  bucket := some ⟨.str "backups", .str "backups-key", .null, .str "https://minio:9000"⟩
  completedAt := .str "2024-05-01T01:10:00Z"

theorem isTextual_bucketRecord : bucketRecord.IsTextual where
  state := rfl
  given := by decide
  destination := rfl
  profile := rfl
  bucket := by
    rintro bucket ⟨⟩
    exact ⟨rfl, rfl, rfl, rfl⟩
  completedAt := rfl

end Nightly

theorem codec_keeps_records_nightly :
    ∃ r, Record.ofJson Nightly.oddRecord = .ok (some r) ∧ Record.ofJson r.toJson = .ok (some r) ∧
      Record.ofJson Nightly.bucketRecord.toJson = .ok (some Nightly.bucketRecord) ∧
      Nightly.bucketRecord.toJson.nullFree = true := by
  have hodd : ∃ r, Record.ofJson Nightly.oddRecord = .ok (some r) := ⟨_, rfl⟩
  obtain ⟨r, hr⟩ := hodd
  have hback := codec_keeps_records.2 Nightly.bucketRecord Nightly.isTextual_bucketRecord
  exact ⟨r, hr, codec_keeps_records.1 _ r hr, hback.1, hback.2.1⟩

end ClusterBackup
