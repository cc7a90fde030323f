import ClusterBackup.Proofs.Queue.Linked
/-!
# Deadlines

What single operations do to the deadlines of a queue, whatever its numbers and its heap are like.
An addition leaves the earlier of two deadlines. A wait is a number of looks, each under the lock
of the queue, with nothing held in between; a look takes out one key, or none.
-/

namespace ClusterBackup.Queue

variable {τ : Type} [Seconds τ] {q : Queue τ ObjectKey} {now : τ} {giveUp : Option τ}

/-! ## Additions -/

/-- The deadline that counts of one that a key may have and a further one. -/
def earliest (current : Option τ) (due : τ) : τ :=
  match current with
  | some current => if Seconds.le current due then current else due
  | none => due

omit [Seconds τ] in
theorem deadline?_congr {k l : ObjectKey} (h : (k == l) = true) :
    q.deadline? k = q.deadline? l :=
  Table.find?_congr h

theorem deadline?_putBefore (q : Queue τ ObjectKey) (k l : ObjectKey) (due : τ) :
    (q.putBefore k due).2.deadline? l =
      if k == l then some (earliest (q.deadline? k) due) else q.deadline? l := by
  unfold putBefore earliest
  cases hk : q.deadline? k with
  | none => exact deadline?_put k l
  | some current =>
    dsimp only
    split
    · split
      · rename_i hkl
        rw [← deadline?_congr hkl, hk]
      · rfl
    · exact deadline?_put k l

/-- An addition fails before it changes anything, or leaves the earlier deadline. -/
theorem deadline?_add (q : Queue τ ObjectKey) (now : τ) (k l : ObjectKey) (delay : τ) :
    (q.add now k delay).2.deadline? l =
      match Seconds.later? now (Seconds.longer Seconds.zero delay) with
      | some due => if k == l then some (earliest (q.deadline? k) due) else q.deadline? l
      | none => q.deadline? l := by
  unfold add offer
  cases Seconds.later? now (Seconds.longer Seconds.zero delay) with
  | none => rfl
  | some due => exact deadline?_putBefore q k l due

theorem deadline?_add_of_ne {k l : ObjectKey} {delay : τ} (h : (k == l) = false) :
    (q.add now k delay).2.deadline? l = q.deadline? l := by
  rw [deadline?_add]
  split
  · exact if_neg (Bool.eq_false_iff.1 h)
  · rfl

/-- An addition never takes a key out of the queue. -/
theorem isSome_deadline?_add {k l : ObjectKey} {delay : τ} (h : (q.deadline? l).isSome = true) :
    ((q.add now k delay).2.deadline? l).isSome = true := by
  rw [deadline?_add]
  split
  · split
    · rfl
    · exact h
  · exact h

theorem isSome_deadline?_of_add {k : ObjectKey} {delay : τ} (h : (q.add now k delay).1 = .ok ()) :
    ((q.add now k delay).2.deadline? k).isSome = true := by
  rw [deadline?_add]
  unfold add offer at h
  cases hdue : Seconds.later? now (Seconds.longer Seconds.zero delay) with
  | none =>
    rw [hdue] at h
    cases h
  | some due =>
    dsimp only
    rw [if_pos BEq.rfl]
    rfl

/-! ## Clean-up -/

theorem deadlines_cleanUpTo (n : Nat) (q : Queue τ ObjectKey) :
    (q.cleanUpTo n).2.deadlines = q.deadlines := by
  fun_induction cleanUpTo n q with
  | case1 => rfl
  | case2 => rfl
  | case3 n q e ht hc dropped hd ih => rw [ih, ← deadlines_dropTop (q := q), hd]
  | case4 n q e ht hc ordered dropped hd => rw [← deadlines_dropTop (q := q), hd]
  | case5 => rfl

theorem deadlines_clean (q : Queue τ ObjectKey) : q.clean.2.deadlines = q.deadlines :=
  deadlines_cleanUpTo _ q

theorem settled_cleanUpTo (n : Nat) (q : Queue τ ObjectKey) (hn : q.heap.size ≤ n)
    (h : (q.cleanUpTo n).1 = true) : (q.cleanUpTo n).2.Settled := by
  fun_induction cleanUpTo n q with
  | case1 => exact settled_of_size_eq_zero (Nat.le_zero.1 hn)
  | case2 n q e ht hc =>
    intro f hf
    obtain rfl : e = f := Option.some.inj (ht.symm.trans hf)
    exact hc
  | case3 n q e ht hc dropped hd ih =>
    have hsize : dropped.heap.size + 1 = q.heap.size := by rw [← size_dropTop ht, hd]
    exact ih (by omega) h
  | case4 => cases h
  | case5 n q ht =>
    intro f hf
    rw [ht] at hf
    cases hf

/-- After a clean-up that comes to its end, the entry on top counts. -/
theorem settled_clean (h : q.clean.1 = true) : q.clean.2.Settled :=
  settled_cleanUpTo _ q le_rfl h

theorem Settled.isSome_deadline? (hs : q.Settled) {k : ObjectKey} (hk : q.dueKey? now = some k) :
    (q.deadline? k).isSome = true := by
  unfold dueKey? at hk
  cases ht : q.heap.top? with
  | none =>
    rw [ht] at hk
    cases hk
  | some e =>
    rw [ht] at hk
    obtain ⟨-, hkey⟩ := Option.ite_none_right_eq_some.1 hk
    obtain rfl : e.key = k := Option.some.inj hkey
    have hcounts := hs e ht
    unfold counts at hcounts
    cases hd : q.deadline? e.key with
    | none =>
      rw [hd] at hcounts
      cases hcounts
    | some due => rfl

/-! ## Looks -/

/-- One look at a queue. Answers what the wait ends with, or nothing if it goes on. -/
def look (q : Queue τ ObjectKey) (now : τ) (giveUp : Option τ) :
    Option (Except Breakdown (Option ObjectKey)) × Queue τ ObjectKey :=
  let (ordered, q) := q.clean
  if !ordered then (some (.error .unordered), q)
  else
    match q.dueKey? now with
    | some k =>
      let (found, q) := q.takeTop k
      (some found, q)
    | none => (if isOver now giveUp then some (.ok none) else none, q)

/-- A wait starts with a look, which ends it, or is followed by a pause and a further wait. -/
theorem await_succ (n : Nat) (q : Queue τ ObjectKey) (now : τ) (giveUp : Option τ)
    (waits : List τ) :
    q.await (n + 1) now giveUp waits =
      match q.look now giveUp with
      | (some found, q) => ⟨found, q, now, waits⟩
      | (none, q) =>
        match waitFor? now q.heap.top? giveUp with
        | some wait => q.await n (now + wait) giveUp (waits ++ [wait])
        | none => ⟨.error .idleForEver, q, now, waits⟩ := by
  rw [await, look]
  obtain ⟨ordered, c⟩ := q.clean
  cases ordered with
  | false => rfl
  | true =>
    dsimp only
    cases c.dueKey? now with
    | some k => rfl
    | none => cases isOver now giveUp <;> rfl

theorem takeTop_cases (q : Queue τ ObjectKey) (k : ObjectKey) :
    (q.takeTop k).1 = .ok (some k) ∧ (q.takeTop k).2.deadlines = q.deadlines.erase k ∨
      (q.takeTop k).1 = .error .unordered ∧ (q.takeTop k).2.deadlines = q.deadlines := by
  have hkept := deadlines_dropTop (q := q)
  unfold takeTop
  rcases hd : q.dropTop with ⟨ordered, dropped⟩
  rw [hd] at hkept
  cases ordered with
  | true => exact .inl ⟨rfl, congrArg (Table.erase · k) hkept⟩
  | false => exact .inr ⟨rfl, hkept⟩

/-- A look takes one key out of the queue, or leaves all deadlines as they are. -/
theorem look_cases (q : Queue τ ObjectKey) (now : τ) (giveUp : Option τ) :
    (∃ k, (q.look now giveUp).1 = some (.ok (some k)) ∧ (q.deadline? k).isSome = true ∧
        ∀ l, (q.look now giveUp).2.deadline? l = if k == l then none else q.deadline? l) ∨
      (∀ k, (q.look now giveUp).1 ≠ some (.ok (some k))) ∧
        ∀ l, (q.look now giveUp).2.deadline? l = q.deadline? l := by
  have hkept : ∀ l, q.clean.2.deadline? l = q.deadline? l := fun l =>
    congrArg (·.find? l) (deadlines_clean q)
  have hsettled := settled_clean (q := q)
  unfold look
  rcases hc : q.clean with ⟨ordered, c⟩
  rw [hc] at hkept hsettled
  cases ordered with
  | false => exact .inr ⟨by simp, hkept⟩
  | true =>
    simp only [Bool.not_true, Bool.false_eq_true, if_false]
    cases hk : c.dueKey? now with
    | none =>
      refine .inr ⟨fun k => ?_, hkept⟩
      dsimp only
      split <;> simp
    | some k =>
      rcases takeTop_cases c k with ⟨hok, hdeadlines⟩ | ⟨herror, hdeadlines⟩
      · refine .inl ⟨k, congrArg some hok, ?_, fun l => ?_⟩
        · rw [← hkept k]
          exact (hsettled rfl).isSome_deadline? hk
        · rw [← hkept l]
          exact (congrArg (·.find? l) hdeadlines).trans (Table.find?_erase ..)
      · refine .inr ⟨fun l => ?_, fun l => ?_⟩
        · simp [herror]
        · rw [← hkept l]
          exact congrArg (·.find? l) hdeadlines

end ClusterBackup.Queue
