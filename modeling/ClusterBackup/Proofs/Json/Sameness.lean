import ClusterBackup.Json.Equality
/-!
# Values without repeated names

A value in which no object has two members of one name stands for the same thing as itself. Members
of such a value are such values again.
-/

namespace ClusterBackup.Json

mutual

/-- No object in the tree has two members of one name. -/
def wellFormed : Json → Bool
  | arr items => itemsWellFormed items
  | obj members => decide (members.map Prod.fst).Nodup && membersWellFormed members
  | _ => true

def itemsWellFormed : List Json → Bool
  | [] => true
  | a :: as => wellFormed a && itemsWellFormed as

def membersWellFormed : List (String × Json) → Bool
  | [] => true
  | (_, a) :: as => wellFormed a && membersWellFormed as

end

theorem itemsWellFormed_iff {items : List Json} :
    itemsWellFormed items = true ↔ ∀ a ∈ items, a.wellFormed = true := by
  induction items with
  | nil => simp [itemsWellFormed]
  | cons a as ih => simp [itemsWellFormed, ih]

theorem membersWellFormed_iff {members : List (String × Json)} :
    membersWellFormed members = true ↔ ∀ m ∈ members, m.2.wellFormed = true := by
  induction members with
  | nil => simp [membersWellFormed]
  | cons m ms ih => simp [membersWellFormed, ih]

theorem lookup_of_mem {members : List (String × Json)} (hn : (members.map Prod.fst).Nodup)
    {m : String × Json} (hm : m ∈ members) : members.lookup m.1 = some m.2 := by
  obtain ⟨front, back, rfl⟩ := List.append_of_mem hm
  rw [List.lookup_eq_some_iff]
  refine ⟨front, back, rfl, fun p hp => ?_⟩
  rw [List.map_append, List.map_cons, List.nodup_append] at hn
  have hne : p.1 ≠ m.1 := hn.2.2 _ (List.mem_map_of_mem hp) _ List.mem_cons_self
  simpa using hne.symm

/-! ## Sameness -/

theorem equals_str_iff {j : Json} {t : String} : j.equals (str t) = true ↔ j = str t := by
  cases j <;> simp [equals, same, sameNumber, quantity?, number?, isNaN]

theorem sameNumber_self {j : Json} (h : j.number?.isSome = true) : j.sameNumber j = true := by
  obtain ⟨n, hn⟩ := Option.isSome_iff_exists.1 h
  simp [sameNumber, quantity?, hn]

mutual

theorem same_self : ∀ {j : Json}, j.wellFormed = true → j.same j = true
  | null, _ => by simp [isNull]
  | bool _, _ => by simpa [same] using sameNumber_self rfl
  | int _, _ => by simpa [same] using sameNumber_self rfl
  | float _, _ => by simpa [same] using sameNumber_self rfl
  | str _, _ => by simp
  | arr items, h => by
    rw [same]
    exact sameItems_self h
  | obj members, h => by
    rw [wellFormed, Bool.and_eq_true, decide_eq_true_eq] at h
    have hall : sameMembers members members = true :=
      sameMembers_of_lookup h.2 fun m hm => lookup_of_mem h.1 hm
    simp [same, hall]

theorem sameItems_self : ∀ {items : List Json}, itemsWellFormed items = true →
    sameItems items items = true
  | [], _ => by simp [sameItems]
  | a :: as, h => by
    rw [itemsWellFormed, Bool.and_eq_true] at h
    rw [sameItems, same_self h.1, sameItems_self h.2, Bool.and_self]

theorem sameMembers_of_lookup : ∀ {as bs : List (String × Json)}, membersWellFormed as = true →
    (∀ m ∈ as, bs.lookup m.1 = some m.2) → sameMembers as bs = true
  | [], _, _, _ => by simp [sameMembers]
  | (k, a) :: as, bs, h, hb => by
    rw [membersWellFormed, Bool.and_eq_true] at h
    have hfirst : bs.lookup k = some a := hb (k, a) List.mem_cons_self
    have hrest : sameMembers as bs = true :=
      sameMembers_of_lookup h.2 fun m hm => hb m (List.mem_cons_of_mem _ hm)
    rw [sameMembers, hfirst]
    simp [same_self h.1, hrest]

end

/-! ## Members -/

theorem wellFormed_of_lookup {members : List (String × Json)} {name : String} {value : Json}
    (h : membersWellFormed members = true) (hl : members.lookup name = some value) :
    value.wellFormed = true := by
  obtain ⟨front, back, rfl, -⟩ := List.lookup_eq_some_iff.1 hl
  exact membersWellFormed_iff.1 h (name, value) (by simp)

theorem wellFormed_of_member {j value : Json} {name : String} (h : j.wellFormed = true)
    (hm : j.member name = .ok value) : value.wellFormed = true := by
  cases j with
  | obj members =>
    rw [wellFormed, Bool.and_eq_true] at h
    rw [member_obj] at hm
    cases hl : members.lookup name with
    | none =>
      rw [hl] at hm
      cases hm
      rfl
    | some found =>
      rw [hl] at hm
      cases hm
      exact wellFormed_of_lookup h.2 hl
  | _ => cases hm

theorem wellFormed_orElse {j other : Json} (h : j.wellFormed = true)
    (ho : other.wellFormed = true) : (j.orElse other).wellFormed = true := by
  unfold orElse
  split
  · exact h
  · exact ho

theorem wellFormed_orEmpty {j : Json} (h : j.wellFormed = true) : j.orEmpty.wellFormed = true :=
  wellFormed_orElse h (by decide)

theorem wellFormed_orBlank {j : Json} (h : j.wellFormed = true) : j.orBlank.wellFormed = true :=
  wellFormed_orElse h rfl

end ClusterBackup.Json
