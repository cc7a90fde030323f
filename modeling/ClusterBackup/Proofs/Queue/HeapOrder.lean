import ClusterBackup.Queue.Heap
import Mathlib
/-!
# The order in a heap

A heap whose entries are ordered by a rank stays in order: `insert_ordered` and `pop_ordered` say
so, and that no comparison stops them. `Ordered.top_le` says that the entry on top comes no later
than any other.

Both movements are followed by what holds off the place where the moving entry is: `RisesAt` on
the way up and `SinksAt` on the way down.
-/

namespace ClusterBackup.Heap

/-! ## Order off a place -/

section

variable {α β : Type} [LinearOrder β]

theorem parent_lt {c n : Nat} (h : c < n) : (c - 1) / 2 < n := by omega

structure Ordered (rank : α → β) (entries : Array α) : Prop where
  parent_le : ∀ c (h : c < entries.size), 0 < c →
    rank (getElem entries ((c - 1) / 2) (parent_lt h)) ≤ rank entries[c]

/-- Only the entry at a place may come before its parent, and its children do not come before
that parent. -/
structure RisesAt (rank : α → β) (entries : Array α) (place : Nat) : Prop where
  others : ∀ c (h : c < entries.size), 0 < c → c ≠ place →
    rank (getElem entries ((c - 1) / 2) (parent_lt h)) ≤ rank entries[c]
  across : ∀ c (h : c < entries.size), 0 < c → (c - 1) / 2 = place → 0 < place →
    rank (getElem entries (((c - 1) / 2 - 1) / 2) (parent_lt (parent_lt h))) ≤ rank entries[c]

/-- Only the entry at a place may come before its parent or after its children, and these do not
come before that parent. -/
structure SinksAt (rank : α → β) (entries : Array α) (place : Nat) : Prop where
  others : ∀ c (h : c < entries.size), 0 < c → c ≠ place → (c - 1) / 2 ≠ place →
    rank (getElem entries ((c - 1) / 2) (parent_lt h)) ≤ rank entries[c]
  across : ∀ c (h : c < entries.size), 0 < c → (c - 1) / 2 = place → 0 < place →
    rank (getElem entries (((c - 1) / 2 - 1) / 2) (parent_lt (parent_lt h))) ≤ rank entries[c]

variable {rank : α → β} {entries : Array α} {place : Nat}

theorem RisesAt.swap_parent (h : RisesAt rank entries place) (hp : place < entries.size)
    (h0 : 0 < place)
    (hlt : rank entries[place] < rank (getElem entries ((place - 1) / 2) (parent_lt hp))) :
    RisesAt rank (entries.swap place ((place - 1) / 2)) ((place - 1) / 2) := by
  obtain ⟨others, across⟩ := h
  constructor
  · intro c hc hc0 hne
    -- The pairs that changed are those at `place` and at the children of `place` and its parent.
    by_cases hcp : c = place
    · grind
    · by_cases hpar : (c - 1) / 2 = place <;> grind
  · intro c hc hc0 hpar hq
    by_cases hcp : c = place <;> grind

theorem SinksAt.swap_child (h : SinksAt rank entries place) (hp : place < entries.size)
    {child : Nat} (hc : child < entries.size) (h0 : 0 < child) (hpar : (child - 1) / 2 = place)
    (hmin : ∀ c (_ : c < entries.size), 0 < c → (c - 1) / 2 = place →
      rank entries[child] ≤ rank entries[c]) :
    SinksAt rank (entries.swap place child) child := by
  obtain ⟨others, across⟩ := h
  constructor
  · intro c hcs hc0 hne hnp
    by_cases hcp : c = place
    · grind
    · by_cases hsib : (c - 1) / 2 = place <;> grind
  · intro c hcs hc0 hcpar _
    grind

theorem SinksAt.risesAt (h : SinksAt rank entries place)
    (hleaf : ¬ 2 * place + 1 < entries.size) : RisesAt rank entries place where
  others c hc h0 hne := h.others c hc h0 hne (by omega)
  across := h.across

theorem Ordered.risesAt_push (h : Ordered rank entries) (a : α) :
    RisesAt rank (entries.push a) entries.size := by
  constructor
  · intro c hc h0 hne
    have hc' : c < entries.size := by
      rw [Array.size_push] at hc
      omega
    rw [Array.getElem_push_lt hc', Array.getElem_push_lt (by omega)]
    exact h.parent_le c hc' h0
  · intro c hc h0 hpar hs
    rw [Array.size_push] at hc
    omega

theorem Ordered.pop (h : Ordered rank entries) : Ordered rank entries.pop := by
  constructor
  intro c hc h0
  have hc' : c < entries.size := by
    rw [Array.size_pop] at hc
    omega
  rw [Array.getElem_pop, Array.getElem_pop]
  exact h.parent_le c hc' h0

theorem Ordered.sinksAt_set (h : Ordered rank entries) (a : α) (hs : 0 < entries.size) :
    SinksAt rank (entries.set 0 a) 0 := by
  constructor
  · intro c hc h0 hne hpar
    have hc' : c < entries.size := by
      rwa [Array.size_set] at hc
    rw [Array.getElem_set_ne hs (by omega) (by omega), Array.getElem_set_ne hs hc' (by omega)]
    exact h.parent_le c hc' h0
  · intro c hc h0 hpar hlt
    omega

theorem Ordered.top_le (h : Ordered rank entries) (htop : 0 < entries.size) (c : Nat)
    (hc : c < entries.size) : rank entries[0] ≤ rank entries[c] := by
  induction c using Nat.strongRecOn with
  | ind c ih =>
    by_cases h0 : c = 0
    · subst h0
      exact le_rfl
    · exact (ih ((c - 1) / 2) (by omega) (by omega)).trans (h.parent_le c hc (by omega))

theorem top?_le {h : Heap α} (ho : Ordered rank h.entries) {a b : α} (ha : h.top? = some a)
    (hb : b ∈ h.toList) : rank a ≤ rank b := by
  obtain ⟨c, hc, rfl⟩ := List.getElem_of_mem hb
  obtain ⟨h0, rfl⟩ := Array.getElem?_eq_some_iff.1 ha
  exact ho.top_le h0 c hc

end

/-! ## Movements -/

section

variable {α β : Type} [Ranked α] [LinearOrder β] {rank : α → β} {entries : Array α} {place : Nat}

def RankedBy (rank : α → β) (entries : Array α) : Prop :=
  ∀ a ∈ entries, ∀ b ∈ entries, Ranked.before? a b = some (decide (rank a < rank b))

theorem RankedBy.of_perm {others : Array α} (hr : RankedBy rank entries)
    (hp : others.Perm entries) : RankedBy rank others := by
  intro a ha b hb
  exact hr a (hp.mem_iff.1 ha) b (hp.mem_iff.1 hb)

theorem RankedBy.swap (hr : RankedBy rank entries) {i j : Nat} (hi : i < entries.size)
    (hj : j < entries.size) : RankedBy rank (entries.swap i j) :=
  hr.of_perm (Array.swap_perm hi hj)

theorem RankedBy.before (hr : RankedBy rank entries) {i j : Nat} (hi : i < entries.size)
    (hj : j < entries.size) :
    Ranked.before? entries[i] entries[j] = some (decide (rank entries[i] < rank entries[j])) :=
  hr _ (Array.getElem_mem hi) _ (Array.getElem_mem hj)

theorem rise_ordered (hp : place < entries.size) (hr : RankedBy rank entries)
    (h : RisesAt rank entries place) :
    (rise entries place hp).1 = true ∧ Ordered rank (rise entries place hp).2 := by
  fun_induction rise entries place hp with
  | case1 entries hp => exact ⟨rfl, ⟨fun c hc h0 => h.others c hc h0 (by omega)⟩⟩
  | case2 entries place hp hne parent hb ih =>
    rw [hr.before] at hb
    apply ih (hr.swap _ _)
    exact h.swap_parent hp (by omega) (by simpa using hb)
  | case3 entries place hp hne parent hb =>
    rw [hr.before] at hb
    refine ⟨rfl, ⟨fun c hc h0 => ?_⟩⟩
    by_cases hcp : c = place
    · subst hcp
      simpa using hb
    · exact h.others c hc h0 hcp
  | case4 entries place hp hne parent hb =>
    rw [hr.before] at hb
    cases hb

theorem sink_ordered (hp : place < entries.size) (hr : RankedBy rank entries)
    (h : SinksAt rank entries place) :
    (sink entries place hp).1 = true ∧ Ordered rank (sink entries place hp).2 := by
  fun_induction sink entries place hp with
  | case1 entries place hp left right hl hrt hb ih =>
    rw [hr.before] at hb
    apply ih (hr.swap _ _)
    refine h.swap_child hp hl (by omega) (by omega) fun c hc h0 hpar => ?_
    obtain rfl | rfl : c = left ∨ c = right := by omega
    · exact le_rfl
    · exact (by simpa using hb : rank entries[left] < rank entries[right]).le
  | case2 entries place hp left right hl hrt hb ih =>
    rw [hr.before] at hb
    apply ih (hr.swap _ _)
    refine h.swap_child hp hrt (by omega) (by omega) fun c hc h0 hpar => ?_
    obtain rfl | rfl : c = left ∨ c = right := by omega
    · simpa using hb
    · exact le_rfl
  | case3 entries place hp left right hl hrt hb =>
    rw [hr.before] at hb
    cases hb
  | case4 entries place hp left right hl hrt ih =>
    apply ih (hr.swap _ _)
    refine h.swap_child hp hl (by omega) (by omega) fun c hc h0 hpar => ?_
    obtain rfl : c = left := by omega
    exact le_rfl
  | case5 entries place hp left hl => exact rise_ordered hp hr (h.risesAt hl)

/-! ## Operations -/

theorem insert_ordered {h : Heap α} {a : α} (hr : RankedBy rank (h.entries.push a))
    (ho : Ordered rank h.entries) :
    (h.insert a).1 = true ∧ Ordered rank (h.insert a).2.entries :=
  rise_ordered _ hr (ho.risesAt_push a)

theorem replaceTop_ordered {a : α} (hr : RankedBy rank (entries.push a))
    (ho : Ordered rank entries) :
    (replaceTop entries a).1 = true ∧ Ordered rank (replaceTop entries a).2 := by
  unfold replaceTop
  split
  · rename_i h0
    apply sink_ordered
    · intro b hb c hc
      have hmem : ∀ x ∈ entries.set 0 a, x ∈ entries.push a := by
        intro x hx
        rw [Array.mem_push]
        exact (Array.mem_or_eq_of_mem_set hx)
      exact hr b (hmem b hb) c (hmem c hc)
    · exact ho.sinksAt_set a h0
  · exact ⟨rfl, ho⟩

theorem pop_ordered {h : Heap α} (hr : RankedBy rank h.entries) (ho : Ordered rank h.entries) :
    h.pop.1 = true ∧ Ordered rank h.pop.2.entries := by
  obtain ⟨entries⟩ := h
  unfold Heap.pop
  split
  · rename_i last hlast
    obtain ⟨rest, rfl⟩ := Array.back?_eq_some_iff.1 hlast
    simp only [Array.pop_push]
    exact replaceTop_ordered hr (by simpa using ho.pop)
  · exact ⟨rfl, ho⟩

end

end ClusterBackup.Heap
