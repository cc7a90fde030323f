import ClusterBackup.Proofs.Api.TextKey
import ClusterBackup.Proofs.Clock.Measured
import ClusterBackup.Proofs.Queue.HeapOrder
/-!
# The link between deadlines and heap

A queue keeps the deadlines of its keys in two places. `Linked` says how they hang together: the
heap is in order and holds every deadline, beside entries that no longer count. Each operation
preserves the link and succeeds, and after a clean-up the entry on top is the least deadline.

Times are only compared here. Which numbers are times, and what their values are, is left open.
-/

namespace ClusterBackup.Queue

variable {τ β : Type} [LinearOrder β] {value : τ → β} {IsTime : τ → Prop}
variable {q : Queue τ ObjectKey} {k : ObjectKey} {e : Entry τ ObjectKey} {due : τ}

/-! ## The link -/

/-- An entry is ranked by the value of its deadline, and then by the texts of its key. -/
def rank (value : τ → β) (e : Entry τ ObjectKey) : β ×ₗ String ×ₗ String :=
  toLex (value e.due, toLex e.key.texts)

structure IsPlain (IsTime : τ → Prop) (e : Entry τ ObjectKey) : Prop where
  time : IsTime e.due
  text : e.key.IsText

/-- The heap is in order and holds each deadline. -/
structure Linked (value : τ → β) (IsTime : τ → Prop) (q : Queue τ ObjectKey) : Prop where
  plain : ∀ e ∈ q.heap.toList, IsPlain IsTime e
  ordered : Heap.Ordered (rank value) q.heap.entries
  time : ∀ k due, q.deadline? k = some due → IsTime due
  held : ∀ (t : TextKey) due, q.deadline? t.key = some due →
    ∃ e ∈ q.heap.toList, e.key = t.key ∧ value e.due = value due

theorem Linked.empty : Linked value IsTime (Queue.empty : Queue τ ObjectKey) where
  plain e he := by simp [Queue.empty] at he
  ordered := ⟨fun c h => by simp [Queue.empty, Heap.empty] at h⟩
  time k due h := by simp [Queue.empty, deadline?] at h
  held t due h := by simp [Queue.empty, deadline?] at h

theorem Linked.mem_plain (hl : Linked value IsTime q) : ∀ e ∈ q.heap.entries, IsPlain IsTime e :=
  fun e he => hl.plain e (Array.mem_toList_iff.2 he)

@[simp] theorem deadline?_discard (k l : ObjectKey) :
    (q.discard k).deadline? l = if k == l then none else q.deadline? l := by
  simp [discard, deadline?]

theorem Linked.discard (hl : Linked value IsTime q) (k : ObjectKey) :
    Linked value IsTime (q.discard k) where
  plain := hl.plain
  ordered := hl.ordered
  time l due h := by
    rw [deadline?_discard] at h
    split at h
    · cases h
    · exact hl.time l due h
  held t due h := by
    rw [deadline?_discard] at h
    split at h
    · cases h
    · exact hl.held t due h

theorem Linked.deadline?_eq_none (hl : Linked value IsTime q) (ht : q.heap.top? = none)
    (t : TextKey) : q.deadline? t.key = none := by
  cases hd : q.deadline? t.key with
  | none => rfl
  | some due =>
    obtain ⟨e, he, -⟩ := hl.held t due hd
    have hnil : q.heap.entries = #[] := by simpa [Heap.top?] using ht
    simp [Heap.toList, hnil] at he

/-! ## The order of entries -/

variable [Seconds τ]

theorem before?_eq (hm : Seconds.Measured value IsTime) {e f : Entry τ ObjectKey}
    (he : IsPlain IsTime e) (hf : IsPlain IsTime f) :
    Ranked.before? e f = some (decide (rank value e < rank value f)) := by
  obtain ⟨t, ht⟩ := he.text
  obtain ⟨u, hu⟩ := hf.text
  have hlt : rank value e < rank value f ↔
      value e.due < value f.due ∨ value e.due = value f.due ∧ toLex t < toLex u := by
    unfold rank
    rw [Prod.Lex.toLex_lt_toLex, ht, hu]
    rfl
  show (if Seconds.same e.due f.due then Ranked.before? e.key f.key
    else some (Seconds.lt e.due f.due)) = _
  rw [hm.same_eq he.time hf.time, hm.lt_eq he.time hf.time, ht, hu, TextKey.before?_key]
  by_cases hv : value e.due = value f.due
  · simp [hlt, hv]
  · simp [hlt, hv]

theorem rankedBy (hm : Seconds.Measured value IsTime) {entries : Array (Entry τ ObjectKey)}
    (hp : ∀ e ∈ entries, IsPlain IsTime e) : Heap.RankedBy (rank value) entries := by
  intro e he f hf
  exact before?_eq hm (hp e he) (hp f hf)

theorem counts_iff (hm : Seconds.Measured value IsTime) (hl : Linked value IsTime q)
    (he : IsPlain IsTime e) :
    q.counts e = true ↔ ∃ due, q.deadline? e.key = some due ∧ value due = value e.due := by
  unfold counts
  cases hd : q.deadline? e.key with
  | none => simp
  | some due => simp [hm.same_eq (hl.time _ _ hd) he.time]

/-! ## Changes of deadlines -/

@[simp] theorem deadline?_put (k l : ObjectKey) :
    (q.put k due).2.deadline? l = if k == l then some due else q.deadline? l := by
  simp [put, deadline?]

theorem Linked.put (hm : Seconds.Measured value IsTime) (hl : Linked value IsTime q)
    (hk : k.IsText) (hd : IsTime due) :
    (q.put k due).1 = .ok () ∧ Linked value IsTime (q.put k due).2 := by
  have hperm := Heap.toList_insert_perm q.heap ⟨due, k⟩
  have hnew : IsPlain IsTime (⟨due, k⟩ : Entry τ ObjectKey) := ⟨hd, hk⟩
  have hranked : Heap.RankedBy (rank value) (q.heap.entries.push ⟨due, k⟩) := by
    apply rankedBy hm
    intro e he
    rw [Array.mem_push] at he
    rcases he with he | rfl
    · exact hl.mem_plain e he
    · exact hnew
  have hins := Heap.insert_ordered hranked hl.ordered
  refine ⟨by simp [Queue.put, hins.1], ?_, hins.2, ?_, ?_⟩
  · intro e he
    rcases List.mem_cons.1 (hperm.mem_iff.1 he) with rfl | he
    · exact hnew
    · exact hl.plain e he
  · intro l d h
    rw [deadline?_put] at h
    split at h
    · cases h
      exact hd
    · exact hl.time l d h
  · intro t d h
    rw [deadline?_put] at h
    split at h
    · rename_i hkt
      cases h
      exact ⟨⟨due, k⟩, hperm.mem_iff.2 (List.mem_cons_self ..), ObjectKey.eq_key_of_beq hkt, rfl⟩
    · obtain ⟨e, he, hek, hev⟩ := hl.held t d h
      exact ⟨e, hperm.mem_iff.2 (List.mem_cons_of_mem _ he), hek, hev⟩

theorem Linked.putBefore (hm : Seconds.Measured value IsTime) (hl : Linked value IsTime q)
    (hk : k.IsText) (hd : IsTime due) :
    (q.putBefore k due).1 = .ok () ∧ Linked value IsTime (q.putBefore k due).2 := by
  unfold Queue.putBefore
  split
  · split
    · exact ⟨rfl, hl⟩
    · exact hl.put hm hk hd
  · exact hl.put hm hk hd

/-! ## Clean-up -/

def Settled (q : Queue τ ObjectKey) : Prop := ∀ e, q.heap.top? = some e → q.counts e = true

@[simp] theorem deadlines_dropTop : q.dropTop.2.deadlines = q.deadlines := rfl

theorem Linked.pop (hm : Seconds.Measured value IsTime) (hl : Linked value IsTime q) :
    q.dropTop.1 = true ∧ Heap.Ordered (rank value) q.dropTop.2.heap.entries :=
  Heap.pop_ordered (rankedBy hm hl.mem_plain) hl.ordered

theorem mem_dropTop (he : q.heap.top? = some e) {f : Entry τ ObjectKey} :
    f ∈ q.heap.toList ↔ f = e ∨ f ∈ q.dropTop.2.heap.toList := by
  rw [(Heap.toList_pop_perm he).mem_iff, List.mem_cons]
  rfl

theorem Linked.dropTop (hm : Seconds.Measured value IsTime) (hl : Linked value IsTime q)
    (he : q.heap.top? = some e) (hc : q.counts e = false) :
    q.dropTop.1 = true ∧ Linked value IsTime q.dropTop.2 := by
  refine ⟨(hl.pop hm).1, ?_, (hl.pop hm).2, hl.time, ?_⟩
  · intro f hf
    exact hl.plain f ((mem_dropTop he).2 (.inr hf))
  · intro t d h
    obtain ⟨f, hf, hfk, hfv⟩ := hl.held t d h
    rcases (mem_dropTop he).1 hf with rfl | hf'
    · -- The entry that holds a deadline counts, so it is not the one dropped.
      have hcount : q.counts f = true :=
        (counts_iff hm hl (hl.plain f hf)).2 ⟨d, by rw [hfk]; exact h, hfv.symm⟩
      rw [hc] at hcount
      cases hcount
    · exact ⟨f, hf', hfk, hfv⟩

theorem size_dropTop (he : q.heap.top? = some e) :
    q.dropTop.2.heap.size + 1 = q.heap.size := by
  have hlen := (Heap.toList_pop_perm he).length_eq
  rw [List.length_cons] at hlen
  exact hlen.symm

theorem settled_of_size_eq_zero (h : q.heap.size = 0) : q.Settled := by
  intro e he
  obtain ⟨hlt, -⟩ := Array.getElem?_eq_some_iff.1 he
  have hsize : q.heap.entries.size = 0 := h
  omega

theorem Linked.cleanUpTo (hm : Seconds.Measured value IsTime) (n : Nat)
    (hl : Linked value IsTime q) (hn : q.heap.size ≤ n) :
    (q.cleanUpTo n).1 = true ∧ Linked value IsTime (q.cleanUpTo n).2 ∧
      (q.cleanUpTo n).2.Settled ∧ (q.cleanUpTo n).2.deadlines = q.deadlines := by
  induction n generalizing q with
  | zero => exact ⟨rfl, hl, settled_of_size_eq_zero (Nat.le_zero.1 hn), rfl⟩
  | succ n ih =>
    unfold Queue.cleanUpTo
    cases ht : q.heap.top? with
    | none => exact ⟨rfl, hl, fun e he => by simp [ht] at he, rfl⟩
    | some e =>
      cases hc : q.counts e with
      | true =>
        refine ⟨by simp [hc], by simpa [hc] using hl, ?_, by simp [hc]⟩
        intro f hf
        simp only [hc, if_true, ht, Option.some.injEq] at hf ⊢
        rw [← hf, hc]
      | false =>
        have hdrop := hl.dropTop hm ht hc
        have hsize := size_dropTop ht
        have hrec := ih hdrop.2 (by omega)
        simpa [hc, hdrop.1] using hrec

/-- A clean-up comes to an end, and keeps all deadlines. -/
theorem Linked.clean (hm : Seconds.Measured value IsTime) (hl : Linked value IsTime q) :
    q.clean.1 = true ∧ Linked value IsTime q.clean.2 ∧ q.clean.2.Settled ∧
      q.clean.2.deadlines = q.deadlines :=
  hl.cleanUpTo hm _ le_rfl

theorem Settled.clean (hs : q.Settled) : q.clean = (true, q) := by
  unfold Queue.clean
  cases hn : q.heap.size with
  | zero => rfl
  | succ n =>
    unfold Queue.cleanUpTo
    cases ht : q.heap.top? with
    | none => rfl
    | some e => simp [hs e ht]

/-! ## The entry on top -/

/-- The entry on top stands for the deadline of its key, and no deadline comes before it. -/
theorem Linked.top_least (hm : Seconds.Measured value IsTime) (hl : Linked value IsTime q)
    (hs : q.Settled) (he : q.heap.top? = some e) :
    ∃ (t : TextKey) (due : τ), e.key = t.key ∧ q.deadline? t.key = some due ∧
      value due = value e.due ∧ ∀ (u : TextKey) (d : τ), q.deadline? u.key = some d →
        toLex (value due, toLex t) ≤ toLex (value d, toLex u) := by
  have hmem : e ∈ q.heap.toList := (mem_dropTop he).2 (.inl rfl)
  have hplain := hl.plain e hmem
  obtain ⟨t, ht⟩ := hplain.text
  obtain ⟨due, hdue, hval⟩ := (counts_iff hm hl hplain).1 (hs e he)
  refine ⟨t, due, ht, ht ▸ hdue, hval, fun u d hd => ?_⟩
  obtain ⟨f, hf, hfk, hfv⟩ := hl.held u d hd
  have hle := Heap.top?_le hl.ordered he hf
  unfold rank at hle
  rwa [ht, hfk, hfv, ← hval, TextKey.texts_key, TextKey.texts_key] at hle

theorem Linked.takeTop (hm : Seconds.Measured value IsTime) (hl : Linked value IsTime q)
    (he : q.heap.top? = some e) :
    (q.takeTop e.key).1 = .ok (some e.key) ∧ Linked value IsTime (q.takeTop e.key).2 ∧
      (q.takeTop e.key).2.deadlines = q.deadlines.erase e.key := by
  have hpop := hl.pop hm
  have heq : q.takeTop e.key = (.ok (some e.key), q.dropTop.2.discard e.key) := by
    unfold Queue.takeTop
    simp [hpop.1]
  rw [heq]
  refine ⟨rfl, ⟨?_, hpop.2, ?_, ?_⟩, rfl⟩
  · intro f hf
    exact hl.plain f ((mem_dropTop he).2 (.inr hf))
  · intro l d h
    rw [deadline?_discard] at h
    split at h
    · cases h
    · exact hl.time l d h
  · intro t d h
    rw [deadline?_discard] at h
    split at h
    · cases h
    · rename_i hne
      obtain ⟨f, hf, hfk, hfv⟩ := hl.held t d h
      rcases (mem_dropTop he).1 hf with rfl | hf'
      · exact absurd (by rw [hfk]; exact BEq.rfl) hne
      · exact ⟨f, hf', hfk, hfv⟩

end ClusterBackup.Queue
