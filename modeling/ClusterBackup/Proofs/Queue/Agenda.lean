import ClusterBackup.Proofs.Api.TextKey
import ClusterBackup.Queue.Basic
import Mathlib.Algebra.Order.Field.Rat
import Mathlib.Data.Finmap
import Mathlib.Data.Multiset.Sort
/-!
# Agendas

What a queue of delayed keys is meant to be: a finite map from keys to deadlines, with exact times.
The key that comes first is the one with the least deadline, and of several with that deadline the
one whose namespace and name come first.
-/

namespace ClusterBackup

abbrev Agenda := Finmap fun _ : TextKey => Rat

namespace Agenda

/-- Adds a key that is due after a delay, unless it is due no later already. -/
def add (a : Agenda) (now : Rat) (t : TextKey) (delay : Rat) : Agenda :=
  match a.lookup t with
  | some current =>
    if current ≤ now + max 0 delay then a else a.insert t (now + max 0 delay)
  | none => a.insert t (now + max 0 delay)

def slots (a : Agenda) : Multiset (Rat ×ₗ String ×ₗ String) :=
  a.entries.map fun s => toLex (s.2, toLex s.1)

def first? (a : Agenda) : Option (Rat × TextKey) :=
  a.slots.sort.head?.map fun s => ((ofLex s).1, ofLex (ofLex s).2)

/-- Waits until the first key is due or the time is out, and takes the key. A key that is due when
the time is out is taken. -/
def take (a : Agenda) (now : Rat) (timeout : Option Rat) :
    Except Breakdown (Option TextKey) × Agenda × Rat :=
  match a.first?, timeout with
  | none, none => (.error .idleForEver, a, now)
  | none, some seconds => (.ok none, a, max now (now + seconds))
  | some (due, t), none => (.ok (some t), a.erase t, max now due)
  | some (due, t), some seconds =>
    if due ≤ max now (now + seconds) then (.ok (some t), a.erase t, max now due)
    else (.ok none, a, max now (now + seconds))

variable {a : Agenda} {t : TextKey} {due : Rat}

theorem mem_slots : toLex (due, toLex t) ∈ a.slots ↔ a.lookup t = some due := by
  rw [slots, Multiset.mem_map, Finmap.lookup_eq_some_iff]
  constructor
  · rintro ⟨⟨u, d⟩, hmem, heq⟩
    obtain ⟨rfl, rfl⟩ : d = due ∧ u = t := by simpa using heq
    exact hmem
  · intro hmem
    exact ⟨⟨t, due⟩, hmem, rfl⟩

theorem first?_eq_some (h : a.lookup t = some due)
    (hmin : ∀ u d, a.lookup u = some d → toLex (due, toLex t) ≤ toLex (d, toLex u)) :
    a.first? = some (due, t) := by
  have hmem : toLex (due, toLex t) ∈ a.slots.sort := by
    rw [Multiset.mem_sort, mem_slots]
    exact h
  unfold first?
  cases hs : a.slots.sort with
  | nil => simp [hs] at hmem
  | cons s rest =>
    have hsorted := a.slots.pairwise_sort (· ≤ ·)
    have hs' : s ∈ a.slots := by
      rw [← Multiset.mem_sort (r := (· ≤ ·)), hs]
      exact List.mem_cons_self ..
    have hle : toLex (due, toLex t) ≤ s := hmin _ _ (mem_slots.1 hs')
    rw [hs] at hmem hsorted
    have hge : s ≤ toLex (due, toLex t) := by
      rcases List.mem_cons.1 hmem with heq | hrest
      · exact heq.ge
      · exact (List.pairwise_cons.1 hsorted).1 _ hrest
    rw [le_antisymm hge hle]
    rfl

theorem first?_eq_none (h : ∀ t, a.lookup t = none) : a.first? = none := by
  have hempty : a = ∅ := Finmap.ext_lookup fun t => by rw [h t, Finmap.lookup_empty]
  have hslots : (∅ : Agenda).slots = 0 := rfl
  rw [hempty, first?, hslots, Multiset.sort_zero]
  rfl

/-! ## Deadlines after a change -/

theorem lookup_insert_ite (a : Agenda) (t u : TextKey) (due : Rat) :
    (a.insert t due).lookup u = if t = u then some due else a.lookup u := by
  by_cases h : t = u
  · subst h
    rw [if_pos rfl, Finmap.lookup_insert]
  · rw [if_neg h, Finmap.lookup_insert_of_ne _ fun hu => h hu.symm]

theorem lookup_erase_ite (a : Agenda) (t u : TextKey) :
    (a.erase t).lookup u = if t = u then none else a.lookup u := by
  by_cases h : t = u
  · subst h
    rw [if_pos rfl, Finmap.lookup_erase]
  · rw [if_neg h, Finmap.lookup_erase_ne fun hu => h hu.symm]

theorem card_insert (a : Agenda) (t : TextKey) (due : Rat) :
    (a.insert t due).keys.card =
      if (a.lookup t).isSome then a.keys.card else a.keys.card + 1 := by
  have hkeys : (a.insert t due).keys = insert t a.keys := by
    ext u
    simp [Finmap.mem_keys, Finmap.mem_insert]
  have hmem : (a.lookup t).isSome = true ↔ t ∈ a.keys := by
    rw [Finmap.mem_keys, Finmap.lookup_isSome]
  rw [hkeys, Finset.card_insert_eq_ite]
  simp only [hmem]

theorem card_erase (a : Agenda) (t : TextKey) :
    (a.erase t).keys.card =
      if (a.lookup t).isSome then a.keys.card - 1 else a.keys.card := by
  have hmem : (a.lookup t).isSome = true ↔ t ∈ a.keys := by
    rw [Finmap.mem_keys, Finmap.lookup_isSome]
  rw [Finmap.keys_erase, Finset.card_erase_eq_ite]
  simp only [hmem]

end Agenda

end ClusterBackup
