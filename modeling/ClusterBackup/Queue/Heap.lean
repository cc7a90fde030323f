import ClusterBackup.Ranked
/-!
# Heaps

A binary heap in an array: the entry at a place comes no later than those at its two children, and
the first entry is on top. Two entries may have no order between them. An operation that comes to
compare such a pair stops there, and leaves the entries where they have got to.

`toList` is the view: `toList_insert_perm` and `toList_pop_perm` say that an insertion adds one
entry and that taking the top off leaves the others, whether or not the operation stopped.
-/

namespace ClusterBackup

structure Heap (α : Type) where
  entries : Array α

namespace Heap

variable {α : Type}

def empty : Heap α := ⟨#[]⟩

def toList (h : Heap α) : List α := h.entries.toList

@[simp] theorem toList_empty : (empty : Heap α).toList = [] := rfl

def size (h : Heap α) : Nat := h.entries.size

def top? (h : Heap α) : Option α := h.entries[0]?

variable [Ranked α]

/-- Moves the entry at a place up as long as it comes before its parent. Answers whether every
pair that was compared has an order. -/
def rise (entries : Array α) (place : Nat) (h : place < entries.size) : Bool × Array α :=
  if place = 0 then (true, entries)
  else
    let parent := (place - 1) / 2
    match Ranked.before? entries[place] entries[parent] with
    | some true =>
      rise (entries.swap place parent) parent (by rw [Array.size_swap]; omega)
    | some false => (true, entries)
    | none => (false, entries)
termination_by place
decreasing_by omega

/-- Moves the entry at a place down to a leaf, each time changing places with the child that comes
first, and then up again. Answers whether every pair that was compared has an order. -/
def sink (entries : Array α) (place : Nat) (h : place < entries.size) : Bool × Array α :=
  let left := 2 * place + 1
  let right := 2 * place + 2
  if hl : left < entries.size then
    if hr : right < entries.size then
      match Ranked.before? entries[left] entries[right] with
      | some true => sink (entries.swap place left) left (by rwa [Array.size_swap])
      | some false => sink (entries.swap place right) right (by rwa [Array.size_swap])
      | none => (false, entries)
    else sink (entries.swap place left) left (by rwa [Array.size_swap])
  else rise entries place h
termination_by entries.size - place
decreasing_by all_goals rw [Array.size_swap]; omega

def insert (h : Heap α) (a : α) : Bool × Heap α :=
  let (ordered, entries) := rise (h.entries.push a) h.entries.size (by simp)
  (ordered, ⟨entries⟩)

def replaceTop (entries : Array α) (a : α) : Bool × Array α :=
  if h : 0 < entries.size then sink (entries.set 0 a) 0 (by simpa) else (true, entries)

/-- The heap without the entry on top, whose place the last one takes. -/
def pop (h : Heap α) : Bool × Heap α :=
  match h.entries.back? with
  | some last =>
    let (ordered, entries) := replaceTop h.entries.pop last
    (ordered, ⟨entries⟩)
  | none => (true, h)

theorem rise_perm (entries : Array α) (place : Nat) (h : place < entries.size) :
    (rise entries place h).2.Perm entries := by
  fun_induction rise entries place h with
  | case1 => exact .refl _
  | case2 entries place h _ parent _ ih => exact ih.trans (Array.swap_perm _ _)
  | case3 => exact .refl _
  | case4 => exact .refl _

theorem sink_perm (entries : Array α) (place : Nat) (h : place < entries.size) :
    (sink entries place h).2.Perm entries := by
  fun_induction sink entries place h with
  | case1 _ _ _ _ _ _ _ _ ih => exact ih.trans (Array.swap_perm _ _)
  | case2 _ _ _ _ _ _ _ _ ih => exact ih.trans (Array.swap_perm _ _)
  | case3 => exact .refl _
  | case4 _ _ _ _ _ _ _ ih => exact ih.trans (Array.swap_perm _ _)
  | case5 => exact rise_perm _ _ _

theorem toList_insert_perm (h : Heap α) (a : α) : (h.insert a).2.toList.Perm (a :: h.toList) := by
  have hp := (rise_perm (h.entries.push a) h.entries.size (by simp)).toList
  rw [Array.toList_push] at hp
  exact hp.trans (List.perm_append_singleton a _)

theorem replaceTop_perm (a b : α) (entries : List α) :
    (replaceTop (b :: entries).toArray a).2.toList.Perm (a :: entries) := by
  simpa [replaceTop] using (sink_perm (a :: entries).toArray 0 (by simp)).toList

theorem toList_pop_perm {h : Heap α} {a : α} (ha : h.top? = some a) :
    h.toList.Perm (a :: h.pop.2.toList) := by
  obtain ⟨⟨entries⟩⟩ := h
  obtain ⟨rest, rfl⟩ : ∃ rest, entries = a :: rest := by
    cases entries <;> simp_all [top?]
  rcases List.eq_nil_or_concat rest with rfl | ⟨inner, last, rfl⟩
  · simp [pop, toList, replaceTop]
  · have hp := replaceTop_perm last a inner
    rw [List.concat_eq_append, ← List.cons_append]
    simp only [pop, toList, List.back?_toArray, List.pop_toArray, List.getLast?_concat,
      List.dropLast_concat]
    exact .cons a ((List.perm_append_singleton last inner).trans hp.symm)

end Heap

end ClusterBackup
