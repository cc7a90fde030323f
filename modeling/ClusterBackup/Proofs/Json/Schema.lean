import ClusterBackup.Json.Basic
import ClusterBackup.Profile
/-!
# Types of values

The type that the API documents for a value. A field of an object may be left out or be null; an
element of a list may not. What is read of a value of a type is there, and is of the documented type
again (`admits_member`, `elements_of_admits`, `table_of_admits`).
-/

namespace ClusterBackup

/-- A type: texts, anything, lists, objects with given fields, and objects with any names. -/
inductive Schema where
  | text
  | anything
  | list (item : Schema)
  | object (fields : List (String × Schema))
  | table (value : Schema)

namespace Schema

mutual

def describes : Schema → Json → Bool
  | text, .str _ => true
  | anything, _ => true
  | list item, .arr items => items.all item.describes
  | object fields, .obj members => describesFields fields members
  | table value, .obj members => members.all fun m => m.2.isNull || value.describes m.2
  | _, _ => false

/-- Whether each field is null or of its type. -/
def describesFields : List (String × Schema) → List (String × Json) → Bool
  | [], _ => true
  | (name, field) :: fields, members =>
    (((members.lookup name).getD .null).isNull ||
      field.describes ((members.lookup name).getD .null)) && describesFields fields members

end

def admits (s : Schema) (j : Json) : Bool := j.isNull || s.describes j

variable {s : Schema} {j : Json} {fields : List (String × Schema)}

theorem describesFields_iff {members : List (String × Json)} :
    describesFields fields members = true ↔
      ∀ f ∈ fields, f.2.admits ((members.lookup f.1).getD .null) = true := by
  induction fields with
  | nil => simp [describesFields]
  | cons f fields ih =>
    rw [describesFields, Bool.and_eq_true, ih, List.forall_mem_cons]
    rfl

theorem describes_of_given (h : s.admits j = true) (hg : j.given = true) :
    s.describes j = true := by
  cases j with
  | null => cases hg
  | _ => exact h

theorem admits_of_describes (h : s.describes j = true) : s.admits j = true := by
  rw [admits, h, Bool.or_true]

/-! ## Reading -/

theorem describes_member (h : (object fields).describes j = true) (name : String)
    (hf : fields.lookup name = some s) :
    ∃ value, j.member name = .ok value ∧ s.admits value = true := by
  cases j with
  | obj members =>
    rw [describes, describesFields_iff] at h
    obtain ⟨front, back, rfl, -⟩ := List.lookup_eq_some_iff.1 hf
    exact ⟨_, rfl, h (name, s) (by simp)⟩
  | _ => cases h

/-- What is found as a field is of the type of the field, or null. -/
theorem admits_of_member {value : Json} {name : String} (h : (object fields).describes j = true)
    (hf : fields.lookup name = some s) (hv : j.member name = .ok value) :
    s.admits value = true := by
  obtain ⟨found, hfound, hadmits⟩ := describes_member h name hf
  rw [hv] at hfound
  cases hfound
  exact hadmits

theorem describes_orEmpty (h : (object fields).admits j = true) :
    (object fields).describes j.orEmpty = true := by
  unfold Json.orEmpty Json.orElse
  by_cases hg : j.given = true
  · rw [if_pos hg]
    exact describes_of_given h hg
  · rw [if_neg hg, describes, describesFields_iff]
    intro f _
    rfl

theorem admits_member (h : (object fields).admits j = true) (name : String)
    (hf : fields.lookup name = some s) :
    ∃ value, j.orEmpty.member name = .ok value ∧ s.admits value = true :=
  describes_member (describes_orEmpty h) name hf

theorem orBlank_of_admits (h : text.admits j = true) : ∃ t, j.orBlank = .str t := by
  unfold Json.orBlank Json.orElse
  by_cases hg : j.given = true
  · rw [if_pos hg]
    have hd := describes_of_given h hg
    cases j with
    | str t => exact ⟨t, rfl⟩
    | _ => cases hd
  · rw [if_neg hg]
    exact ⟨"", rfl⟩

theorem describes_orBlank (h : text.admits j = true) : text.describes j.orBlank = true := by
  obtain ⟨t, ht⟩ := orBlank_of_admits h
  rw [ht]
  rfl

theorem elements_of_admits {item : Schema} (h : (list item).admits j = true) :
    ∃ items, (j.orElse (.arr [])).elements? = some items ∧
      ∀ i ∈ items, item.describes i = true := by
  unfold Json.orElse
  by_cases hg : j.given = true
  · rw [if_pos hg]
    have hd := describes_of_given h hg
    cases j with
    | arr items =>
      rw [describes, List.all_eq_true] at hd
      exact ⟨items, rfl, hd⟩
    | _ => cases hd
  · rw [if_neg hg]
    exact ⟨[], rfl, by simp⟩

theorem table_of_admits {value : Schema} (h : (table value).admits j = true) :
    ∃ members, j.orEmpty = .obj members ∧ ∀ m ∈ members, value.admits m.2 = true := by
  unfold Json.orEmpty Json.orElse
  by_cases hg : j.given = true
  · rw [if_pos hg]
    have hd := describes_of_given h hg
    cases j with
    | obj members =>
      rw [describes, List.all_eq_true] at hd
      exact ⟨members, rfl, hd⟩
    | _ => cases hd
  · rw [if_neg hg]
    exact ⟨[], rfl, by simp⟩

end Schema

end ClusterBackup
