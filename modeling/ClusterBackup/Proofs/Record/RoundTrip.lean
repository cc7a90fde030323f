import ClusterBackup.Proofs.Json.Sameness
import ClusterBackup.Proofs.Record.Closing
import ClusterBackup.Proofs.Record.Reading
/-!
# Records read back

The record that follows from the progress of a job is read back as it was written, and says the same
as itself. Its bucket was read from the description of a cluster, where what is not given is blank.
-/

namespace ClusterBackup

open Api.Server (memberOrNull withMember versionOf)

@[simp] theorem Json.orBlank_str (s : String) : (Json.str s).orBlank = .str s := by
  by_cases h : s = "" <;> simp [Json.orBlank, Json.orElse, h]

@[simp] theorem Json.orBlank_orBlank (j : Json) : j.orBlank.orBlank = j.orBlank := by
  unfold Json.orBlank Json.orElse
  by_cases h : j.given = true
  · simp [h]
  · simp [h]

theorem Json.isNull_orBlank (j : Json) : j.orBlank.isNull = false := by
  unfold Json.orBlank Json.orElse
  cases j with
  | null => rfl
  | _ => split <;> rfl

theorem Json.eq_null_of_isNull {j : Json} (h : j.isNull = true) : j = .null := by
  cases j with
  | null => rfl
  | _ => cases h

/-- Members that are null may be left out: they are seen as null all the same. -/
theorem Json.lookup_present (name : String) {members : List (String × Json)}
    (hn : (members.map Prod.fst).Nodup) :
    ((members.filter fun m => !m.2.isNull).lookup name).getD .null =
      (members.lookup name).getD .null := by
  induction members with
  | nil => rfl
  | cons m ms ih =>
    obtain ⟨first, value⟩ := m
    rw [List.map_cons, List.nodup_cons] at hn
    rw [lookup_cons_eq_ite]
    cases hv : value.isNull with
    | false =>
      rw [List.filter_cons_of_pos (by simp [hv]), lookup_cons_eq_ite]
      split
      · rfl
      · exact ih hn.2
    | true =>
      rw [List.filter_cons_of_neg (by simp [hv]), ih hn.2]
      split
      · rename_i hname
        -- The member that was left out has the name that is looked for, and no other one has it.
        have habsent : ms.lookup name = none := by
          rw [List.lookup_eq_none_iff]
          intro p hp
          have hne : p.1 ≠ first := fun h => hn.1 (List.mem_map.2 ⟨p, hp, h⟩)
          simpa [hname] using hne.symm
        rw [habsent, Json.eq_null_of_isNull hv]
        rfl
      · rfl

/-! ## Buckets -/

namespace Bucket

/-- The bucket was read from a description without repeated names. -/
def Described (b : Bucket) : Prop := ∃ raw : Json, raw.wellFormed = true ∧ ofJson raw = .ok b

/-- The fields that every bucket has are blank, or hold something that counts as given. -/
def Filled (b : Bucket) : Prop :=
  b.name.orBlank = b.name ∧ b.credentials.orBlank = b.credentials

variable {b : Bucket}

theorem ofJson_eq_ok {raw : Json} : ofJson raw = .ok b ↔
    ∃ name credentials, raw.member "bucket" = .ok name ∧
      raw.member "credentialsSecret" = .ok credentials ∧ raw.member "region" = .ok b.region ∧
      raw.member "endpointUrl" = .ok b.endpoint ∧ b.name = name.orBlank ∧
      b.credentials = credentials.orBlank := by
  unfold ofJson
  simp only [bind_eq_ok]
  constructor
  · rintro ⟨name, hname, credentials, hcredentials, region, hregion, endpoint, hendpoint, h⟩
    cases h
    exact ⟨name, credentials, hname, hcredentials, hregion, hendpoint, rfl, rfl⟩
  · rintro ⟨name, credentials, hname, hcredentials, hregion, hendpoint, hn, hc⟩
    refine ⟨name, hname, credentials, hcredentials, _, hregion, _, hendpoint, ?_⟩
    rw [← hn, ← hc]
    rfl

theorem Described.same_self (h : b.Described) : b.same b = true := by
  obtain ⟨raw, hraw, hb⟩ := h
  obtain ⟨name, credentials, hname, hcredentials, hregion, hendpoint, hn, hc⟩ := ofJson_eq_ok.1 hb
  have hsame : ∀ j : Json, j.wellFormed = true → j.same j = true := fun _ => Json.same_self
  unfold same
  rw [hn, hc, hsame _ (Json.wellFormed_orBlank (Json.wellFormed_of_member hraw hname)),
    hsame _ (Json.wellFormed_orBlank (Json.wellFormed_of_member hraw hcredentials)),
    hsame _ (Json.wellFormed_of_member hraw hregion),
    hsame _ (Json.wellFormed_of_member hraw hendpoint)]
  rfl

theorem filled_of_ofJson {raw : Json} (h : ofJson raw = .ok b) : b.Filled := by
  obtain ⟨name, credentials, -, -, -, -, hn, hc⟩ := ofJson_eq_ok.1 h
  unfold Filled
  rw [hn, hc, Json.orBlank_orBlank, Json.orBlank_orBlank]
  exact ⟨rfl, rfl⟩

theorem Described.filled (h : b.Described) : b.Filled := by
  obtain ⟨raw, -, hb⟩ := h
  exact filled_of_ofJson hb

theorem Filled.given_toJson (h : b.Filled) : b.toJson.given = true := by
  have hname : b.name.isNull = false := h.1 ▸ Json.isNull_orBlank b.name
  simp [toJson, Json.given, hname]

theorem Filled.ofJson_toJson (h : b.Filled) : ofJson b.toJson = .ok b := by
  have hmember : ∀ field, b.toJson.member field = .ok (([("bucket", b.name),
      ("credentialsSecret", b.credentials), ("region", b.region),
      ("endpointUrl", b.endpoint)].lookup field).getD .null) := by
    intro field
    rw [toJson, Json.member_obj, Json.lookup_present _ (by simp)]
  exact ofJson_eq_ok.2 ⟨b.name, b.credentials, hmember _, hmember _, hmember _, hmember _,
    h.1.symm, h.2.symm⟩

end Bucket

/-! ## Records -/

/-- The time of completion of a job is null or a text. -/
theorem Progress.completedAt_cases {status : Option Api.JobStatus} {progress : Progress}
    (h : ofStatus? status = some progress) :
    progress.completedAt = .null ∨ ∃ text, progress.completedAt = .str text := by
  cases status with
  | none =>
    cases h
    exact .inl rfl
  | some status =>
    obtain ⟨completedAt, hcompleted, rfl⟩ := Option.map_eq_some_iff.1 h
    unfold completionText? at hcompleted
    split at hcompleted
    · cases hcompleted
      exact .inl rfl
    · obtain ⟨text, -, rfl⟩ := Option.map_eq_some_iff.1 hcompleted
      exact .inr ⟨text, rfl⟩
    · cases hcompleted
      exact .inr ⟨_, rfl⟩

theorem Progress.wellFormed_completedAt {status : Option Api.JobStatus} {progress : Progress}
    (h : ofStatus? status = some progress) : progress.completedAt.wellFormed = true := by
  rcases completedAt_cases h with hnull | ⟨text, htext⟩
  · rw [hnull]
    rfl
  · rw [htext]
    rfl

namespace Record

theorem ofJson_toJson {r : Record} (hstate : r.state.given = true)
    (hdestination : r.destination.orBlank = r.destination)
    (hprofile : r.profile.orBlank = r.profile)
    (hbucket : ∀ bucket, r.bucket = some bucket → bucket.Filled) :
    ofJson r.toJson = .ok (some r) := by
  obtain ⟨state, destination, profile, bucket, completedAt⟩ := r
  dsimp only at hstate hdestination hprofile hbucket
  have hcompleted : (toJson ⟨state, destination, profile, bucket, completedAt⟩).member
      "completedAt" = .ok completedAt := by
    cases bucket <;> cases completedAt <;>
      simp [toJson, Json.isNull, lookup_cons_eq_ite]
  have hstored : (toJson ⟨state, destination, profile, bucket, completedAt⟩).member
      "objectStorage" = .ok ((bucket.map Bucket.toJson).getD .null) := by
    cases bucket with
    | none => cases hc : completedAt.isNull <;> simp [toJson, hc, lookup_cons_eq_ite]
    | some bucket => simp [toJson, lookup_cons_eq_ite]
  have hfields : ∀ field value,
      [("state", state), ("destination", destination), ("storageProfile", profile)].lookup field =
        some value →
      (toJson ⟨state, destination, profile, bucket, completedAt⟩).member field = .ok value := by
    intro field value hvalue
    rw [toJson, Json.member_obj, List.append_assoc, List.lookup_append, hvalue]
    rfl
  unfold ofJson
  rw [hfields "state" state rfl, hfields "destination" destination rfl,
    hfields "storageProfile" profile rfl, hstored, hcompleted]
  have hgiven : (toJson ⟨state, destination, profile, bucket, completedAt⟩).given = true := rfl
  cases bucket with
  | none =>
    simp [hgiven, hstate, hdestination, hprofile, bind, Except.bind, pure, Except.pure]
  | some bucket =>
    have hfilled := hbucket bucket rfl
    simp [hgiven, hstate, hdestination, hprofile, hfilled.given_toJson, hfilled.ofJson_toJson, bind,
      Except.bind, pure, Except.pure, Functor.map, Except.map]

theorem same_self {r : Record} (hstate : r.state.wellFormed = true)
    (hdestination : r.destination.wellFormed = true) (hprofile : r.profile.wellFormed = true)
    (hbucket : ∀ bucket, r.bucket = some bucket → bucket.Described)
    (hcompleted : r.completedAt.wellFormed = true) : r.same r = true := by
  obtain ⟨state, destination, profile, bucket, completedAt⟩ := r
  unfold same
  cases bucket with
  | none =>
    simp [Json.same_self hstate, Json.same_self hdestination, Json.same_self hprofile,
      Json.same_self hcompleted]
  | some bucket =>
    simp [Json.same_self hstate, Json.same_self hdestination, Json.same_self hprofile,
      Json.same_self hcompleted, (hbucket bucket rfl).same_self]

/-- A record that was written is seen closed to itself or not, and says the same as itself. -/
theorem isClosedTo_self {progress : Progress} {d : Destination} {profile : Json}
    (hprofile : profile.wellFormed = true) (hp : progress.completedAt.wellFormed = true)
    (hbucket : ∀ bucket, d.bucket = some bucket → bucket.Described) :
    let r := ofProgress progress d profile
    (∃ closed, isClosedTo (some r) r = .ok closed) ∧ r.differsFrom (some r) = false := by
  intro r
  have hstage : r.stage? = some progress.stage := stage?_ofProgress ..
  have hself : r.same r = true := by
    refine same_self rfl rfl hprofile hbucket ?_
    show (if _ then progress.completedAt else _ : Json).wellFormed = true
    split
    · exact hp
    · rfl
  constructor
  · rw [isClosedTo, isFinal_of_stage? hstage]
    exact ⟨_, rfl⟩
  · simp [differsFrom, hself]

theorem ofJson_ofProgress (progress : Progress) {d : Destination} {profile : Json}
    (hprofile : profile.orBlank = profile)
    (hbucket : ∀ bucket, d.bucket = some bucket → bucket.Filled) :
    ofJson (ofProgress progress d profile).toJson = .ok (some (ofProgress progress d profile)) := by
  refine ofJson_toJson ?_ (Json.orBlank_str _) hprofile hbucket
  show (Json.str progress.stage.name).given = true
  cases progress.stage <;> decide

end Record

/-! ## Backups -/

theorem Backup.metadata_of_ofJson {object : Json} {b : Backup} (hb : Backup.ofJson object = .ok b) :
    ∃ members inner, object = .obj members ∧ members.lookup "metadata" = some (.obj inner) ∧
      inner ≠ [] := by
  unfold Backup.ofJson at hb
  simp only [bind_eq_ok, mapError_eq_ok] at hb
  obtain ⟨metadata, hmetadata, spec, -, ns, -, name, -, uid, -, cluster, -, profile, -, created,
    hcreated, createdAt, hat, -⟩ := hb
  have hgiven : created.given = true := by
    cases hg : created.given with
    | true => rfl
    | false => simp [Timestamp.ofJson, hg] at hat
  have hseen : memberOrNull metadata "creationTimestamp" = created :=
    memberOrNull_of_orEmpty hcreated
  cases metadata with
  | obj inner =>
    cases object with
    | obj members =>
      refine ⟨members, inner, rfl, ?_, ?_⟩
      · rw [Json.member_obj] at hmetadata
        cases hl : members.lookup "metadata" with
        | none => simp [hl] at hmetadata
        | some found => simpa [hl] using hmetadata
      · rintro rfl
        rw [← hseen] at hgiven
        cases hgiven
    | _ => cases hmetadata
  | _ =>
    rw [← hseen] at hgiven
    cases hgiven

theorem member_orEmpty_obj {members : List (String × Json)} (h : members ≠ []) (name : String) :
    (Json.obj members).orEmpty.member name = .ok ((members.lookup name).getD .null) := by
  have hgiven : (Json.obj members).given = true := by simp [Json.given, h]
  rw [Json.orEmpty, Json.orElse, if_pos hgiven, Json.member_obj]

theorem putMember_ne_nil (name : String) (value : Json) (members : List (String × Json)) :
    Json.putMember name value members ≠ [] := by
  cases members with
  | nil => simp [Json.putMember]
  | cons m ms =>
    unfold Json.putMember
    split <;> simp

theorem member_replaced {members inner : List (String × Json)} {object : Json}
    {u : Api.StatusUpdate} (hm : members.lookup "metadata" = some (.obj inner))
    (hr : Api.Server.replaced (.obj members) u = .ok object) :
    ∃ version, ∀ name, object.member name = .ok (if name = "status" then u.record.toJson
      else if name = "metadata" then .obj (Json.putMember "resourceVersion" version inner)
      else (members.lookup name).getD .null) := by
  unfold Api.Server.replaced at hr
  dsimp only at hr
  split at hr
  · cases hr
  · cases hv : Api.Server.nextVersion (versionOf (.obj members)) with
    | error f => simp [hv, Except.map] at hr
    | ok version =>
      rw [hv] at hr
      cases hr
      refine ⟨version, fun name => ?_⟩
      simp only [withMember, memberOrNull, Json.member_obj, hm, Option.getD_some, lookup_putMember]
      split
      · rfl
      · split <;> rfl

/-- A backup whose record was replaced is read as before, with the new record. -/
theorem Backup.ofJson_replaced {object object' : Json} {b : Backup} {u : Api.StatusUpdate}
    {record : Option Record} (hb : Backup.ofJson object = .ok b)
    (hr : Api.Server.replaced object u = .ok object')
    (hrecord : Record.ofJson u.record.toJson = .ok record) :
    ∃ version, Backup.ofJson object' = .ok { b with record, version } := by
  obtain ⟨members, inner, rfl, hmetadata, hinner⟩ := metadata_of_ofJson hb
  obtain ⟨version, hmembers⟩ := member_replaced hmetadata hr
  have hversion : (Json.obj (Json.putMember "resourceVersion" version inner)).orEmpty.member
      "resourceVersion" = .ok version := by
    rw [member_orEmpty_obj (putMember_ne_nil _ _ _), lookup_putMember, if_pos rfl, Option.getD_some]
  have hkept : ∀ name value, name ≠ "resourceVersion" →
      (Json.obj inner).orEmpty.member name = .ok value →
      (Json.obj (Json.putMember "resourceVersion" version inner)).orEmpty.member name =
        .ok value := by
    intro name value hne h
    rw [member_orEmpty_obj hinner] at h
    rw [member_orEmpty_obj (putMember_ne_nil _ _ _), lookup_putMember, if_neg hne, h]
  -- Reading goes through the same steps; only the version and the record are found changed.
  unfold Backup.ofJson at hb ⊢
  simp only [bind_eq_ok, mapError_eq_ok, Json.member_obj, hmetadata, Option.getD_some] at hb ⊢
  obtain ⟨metadata, hm, spec, hspec, ns, hns, name, hname, uid, huid, cluster, hcluster,
    profile, hprofile, created, hcreated, createdAt, hat, oldVersion, -, oldRecord, -, h⟩ := hb
  cases hm
  cases h
  exact ⟨version, _, hmembers "metadata", spec, (hmembers "spec").trans hspec,
    ns, hkept _ _ (by decide) hns, name, hkept _ _ (by decide) hname,
    uid, hkept _ _ (by decide) huid, cluster, hcluster, profile, hprofile,
    created, hkept _ _ (by decide) hcreated, createdAt, hat, version, hversion,
    record, bind_eq_ok.2 ⟨_, hmembers "status", hrecord⟩, rfl⟩

end ClusterBackup
