import ClusterBackup.Api.Server
import ClusterBackup.Backup
/-!
# Reading what is stored

What a backup that was read from a stored object knows of it: the version, and the record under
`status`. Members of a stored object are seen through `memberOrNull`.
-/

namespace ClusterBackup

open Api.Server (memberOrNull withMember versionOf)

/-! ## Results -/

theorem bind_eq_ok {ε α β : Type} {x : Except ε α} {f : α → Except ε β} {b : β} :
    x >>= f = .ok b ↔ ∃ a, x = .ok a ∧ f a = .ok b := by
  cases x with
  | error e =>
    constructor
    · intro h
      cases h
    · rintro ⟨a, ha, -⟩
      cases ha
  | ok a =>
    constructor
    · intro h
      exact ⟨a, rfl, h⟩
    · rintro ⟨a, ⟨⟩, h⟩
      exact h

theorem bind_eq_error {ε α β : Type} {x : Except ε α} {f : α → Except ε β} {e : ε} :
    x >>= f = .error e ↔ x = .error e ∨ ∃ a, x = .ok a ∧ f a = .error e := by
  cases x with
  | error e' =>
    constructor
    · intro h
      cases h
      exact .inl rfl
    · rintro (h | ⟨a, ha, -⟩)
      · cases h
        rfl
      · cases ha
  | ok a =>
    constructor
    · intro h
      exact .inr ⟨a, rfl, h⟩
    · rintro (h | ⟨a, ⟨⟩, h⟩)
      · cases h
      · exact h

theorem mapError_eq_ok {ε ε' α : Type} {x : Except ε α} {f : ε → ε'} {a : α} :
    x.mapError f = .ok a ↔ x = .ok a := by
  cases x with
  | ok b =>
    constructor
    · intro h
      cases h
      rfl
    · intro h
      cases h
      rfl
  | error e =>
    constructor
    · intro h
      cases h
    · intro h
      cases h

theorem mapError_eq_error {ε ε' α : Type} {x : Except ε α} {f : ε → ε'} {e : ε'} :
    x.mapError f = .error e ↔ ∃ e', x = .error e' ∧ f e' = e := by
  cases x with
  | ok a =>
    constructor
    · intro h
      cases h
    · rintro ⟨e', he, -⟩
      cases he
  | error e' =>
    constructor
    · intro h
      cases h
      exact ⟨e', rfl, rfl⟩
    · rintro ⟨e'', he, rfl⟩
      cases he
      rfl

theorem eq_ok_of_toOption {ε α : Type} {x : Except ε α} {a : α} (h : x.toOption = some a) :
    x = .ok a := by
  cases x with
  | ok b =>
    cases h
    rfl
  | error e => cases h

/-! ## Members -/

theorem memberOrNull_of_member {j value : Json} {name : String}
    (h : j.member name = .ok value) : memberOrNull j name = value := by
  unfold memberOrNull
  rw [h]

theorem memberOrNull_of_orEmpty {j value : Json} {name : String}
    (h : j.orEmpty.member name = .ok value) : memberOrNull j name = value := by
  unfold Json.orEmpty Json.orElse at h
  by_cases hg : j.given = true
  · rw [if_pos hg] at h
    exact memberOrNull_of_member h
  · rw [if_neg hg] at h
    cases h
    cases j with
    | obj members =>
      cases members with
      | nil => rfl
      | cons m ms => simp [Json.given] at hg
    | _ => rfl

theorem memberOrNull_of_not_given {j : Json} (h : j.given = false) (name : String) :
    memberOrNull j name = .null := by
  cases j with
  | obj members =>
    cases members with
    | nil => rfl
    | cons m ms => cases h
  | _ => rfl

theorem lookup_cons_eq_ite (name other : String) (value : Json) (members : List (String × Json)) :
    ((name, value) :: members).lookup other =
      if other = name then some value else members.lookup other := by
  rw [List.lookup_cons]
  by_cases h : other = name
  · simp [h]
  · rw [if_neg h, beq_false_of_ne h]

theorem lookup_putMember (name other : String) (value : Json) (members : List (String × Json)) :
    (Json.putMember name value members).lookup other =
      if other = name then some value else members.lookup other := by
  induction members with
  | nil => exact lookup_cons_eq_ite ..
  | cons m ms ih =>
    obtain ⟨first, v⟩ := m
    by_cases hfirst : first = name
    · subst hfirst
      rw [Json.putMember, if_pos rfl, lookup_cons_eq_ite, lookup_cons_eq_ite]
      split <;> rfl
    · rw [Json.putMember, if_neg hfirst, lookup_cons_eq_ite, lookup_cons_eq_ite, ih]
      by_cases hother : other = first
      · rw [if_pos hother, if_pos hother, if_neg (hother ▸ hfirst)]
      · rw [if_neg hother, if_neg hother]

/-- A member that was put in is the one seen, and the others are as before. -/
theorem memberOrNull_withMember (members : List (String × Json)) (name other : String)
    (value : Json) :
    memberOrNull (withMember (.obj members) name value) other =
      if other = name then value else memberOrNull (.obj members) other := by
  unfold withMember memberOrNull
  simp only [Json.member_obj, lookup_putMember]
  split <;> rfl

/-! ## Records -/

def stateOf (object : Json) : Json := memberOrNull (memberOrNull object "status") "state"

def completionOf (object : Json) : Json :=
  memberOrNull (memberOrNull object "status") "completedAt"

@[simp] theorem memberOrNull_state_toJson (r : Record) :
    memberOrNull r.toJson "state" = r.state := by
  simp [memberOrNull, Record.toJson]

@[simp] theorem memberOrNull_completedAt_toJson (r : Record) :
    memberOrNull r.toJson "completedAt" = r.completedAt := by
  obtain ⟨state, destination, profile, bucket, completedAt⟩ := r
  cases bucket <;> cases completedAt <;>
    simp [memberOrNull, Record.toJson, Json.isNull, lookup_cons_eq_ite]

/-- Where a state is stored a record is read, with that state and the time of completion. -/
theorem Record.ofJson_of_given {raw : Json} {record : Option Record}
    (h : Record.ofJson raw = .ok record) (hs : (memberOrNull raw "state").given = true) :
    ∃ r, record = some r ∧ r.state = memberOrNull raw "state" ∧
      r.completedAt = memberOrNull raw "completedAt" := by
  have hraw : raw.given = true := by
    cases hg : raw.given with
    | true => rfl
    | false =>
      rw [memberOrNull_of_not_given hg] at hs
      cases hs
  unfold Record.ofJson at h
  simp only [hraw, Bool.not_true, Bool.false_eq_true, if_false, bind_eq_ok] at h
  obtain ⟨state, hstate, h⟩ := h
  rw [memberOrNull_of_member hstate] at hs
  simp only [hs, Bool.not_true, Bool.false_eq_true, if_false, bind_eq_ok] at h
  obtain ⟨bucket, -, destination, -, profile, -, h⟩ := h
  rw [memberOrNull_of_member hstate]
  split at h
  · obtain ⟨stored, -, h⟩ := bind_eq_ok.1 h
    obtain ⟨completedAt, hc, h⟩ := bind_eq_ok.1 h
    cases h
    exact ⟨_, rfl, rfl, (memberOrNull_of_member hc).symm⟩
  · obtain ⟨stored, -, h⟩ := bind_eq_ok.1 h
    obtain ⟨completedAt, hc, h⟩ := bind_eq_ok.1 h
    cases h
    exact ⟨_, rfl, rfl, (memberOrNull_of_member hc).symm⟩

/-! ## Backups -/

structure Backup.ReadFrom (b : Backup) (object : Json) : Prop where
  ns : b.ns = (memberOrNull (memberOrNull object "metadata") "namespace").orBlank
  name : b.name = (memberOrNull (memberOrNull object "metadata") "name").orBlank
  uid : b.uid = (memberOrNull (memberOrNull object "metadata") "uid").orBlank
  version : b.version = versionOf object
  record : Record.ofJson (memberOrNull object "status") = .ok b.record

theorem Backup.readFrom_of_ofJson {object : Json} {b : Backup}
    (h : Backup.ofJson object = .ok b) : b.ReadFrom object := by
  unfold Backup.ofJson at h
  simp only [bind_eq_ok, mapError_eq_ok] at h
  obtain ⟨metadata, hmetadata, spec, -, ns, hns, name, hname, uid, huid, cluster, -, profile, -,
    created, -, createdAt, -, version, hversion, record, hrecord, h⟩ := h
  cases h
  have hm := memberOrNull_of_member hmetadata
  constructor
  · rw [hm, memberOrNull_of_orEmpty hns]
  · rw [hm, memberOrNull_of_orEmpty hname]
  · rw [hm, memberOrNull_of_orEmpty huid]
  · rw [versionOf, hm, memberOrNull_of_orEmpty hversion]
  · obtain ⟨status, hstatus, hr⟩ := bind_eq_ok.1 hrecord
    rw [memberOrNull_of_member hstatus]
    exact hr

/-! ## Replaced records -/

/-- A record is replaced where the version is the current one, or none is given. What has a version
afterwards holds the new record. -/
theorem accepted_of_replaced {object object' : Json} {u : Api.StatusUpdate}
    (h : Api.Server.replaced object u = .ok object') :
    (u.version.given = false ∨ u.version.equals (versionOf object) = true) ∧
      ((versionOf object').given = true → memberOrNull object' "status" = u.record.toJson) := by
  unfold Api.Server.replaced at h
  dsimp only at h
  split at h
  · cases h
  · rename_i haccept
    constructor
    · cases hg : u.version.given with
      | false => exact .inl rfl
      | true => exact .inr (by simpa [hg] using haccept)
    · intro hv
      cases hn : Api.Server.nextVersion (versionOf object) with
      | error f => simp [hn, Except.map] at h
      | ok version =>
        rw [hn] at h
        cases h
        cases object with
        | obj members =>
          have hstatus := memberOrNull_withMember
            (Json.putMember "metadata" (withMember (memberOrNull (.obj members) "metadata")
              "resourceVersion" version) members) "status" "status" u.record.toJson
          rw [if_pos rfl] at hstatus
          exact hstatus
        | _ => cases hv

end ClusterBackup
