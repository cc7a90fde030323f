import ClusterBackup.Proofs.Clock.Measured
import ClusterBackup.Proofs.Numeric.Units
import ClusterBackup.Proofs.Worker.Shift
import Mathlib.Algebra.Order.Ring.Rat
import Mathlib.Tactic.GCongr
/-!
# Failures in a row

What a worker counts is what its history says: the failures of a key since it was last deleted or
judged otherwise. The delay before the next try is read off that number, and grows with it up to a
limit. Delays are exact here.
-/

namespace ClusterBackup

namespace Deed

variable {τ : Type}

def isFailureOf (k : ObjectKey) : Deed τ → Bool
  | ended l verdict _ => l == k && verdict.isFailure
  | _ => false

/-- Whether the failures of a key no longer count: its object was deleted, or a reconcile of it
ended without a failure. -/
def resets (k : ObjectKey) : Deed τ → Bool
  | saw _ event _ => event.deletes k
  | ended l verdict _ => l == k && !verdict.isFailure
  | _ => false

theorem not_resets_of_isFailureOf {k : ObjectKey} {d : Deed τ} (h : d.isFailureOf k = true) :
    d.resets k = false := by
  cases d with
  | ended l verdict result =>
    obtain ⟨-, hfailure⟩ := Bool.and_eq_true_iff.1 h
    show (l == k && !verdict.isFailure) = false
    rw [hfailure, Bool.not_true, Bool.and_false]
  | _ => cases h

end Deed

namespace Shift

/-! ## The count -/

section

variable {τ : Type} {k : ObjectKey} {h before after : List (Deed τ)} {d : Deed τ}

/-- The number of failures of a key after the last deed that resets it. -/
def streak (k : ObjectKey) (h : List (Deed τ)) : Nat :=
  (h.reverse.takeWhile fun d => !d.resets k).countP (·.isFailureOf k)

theorem streak_concat (k : ObjectKey) (h : List (Deed τ)) (d : Deed τ) :
    streak k (h ++ [d]) =
      if d.resets k then 0 else streak k h + if d.isFailureOf k then 1 else 0 := by
  unfold streak
  rw [List.reverse_append, List.reverse_singleton, List.singleton_append, List.takeWhile_cons]
  cases d.resets k with
  | true => rfl
  | false => exact List.countP_cons

theorem streak_concat_failure (hd : d.isFailureOf k = true) :
    streak k (h ++ [d]) = streak k h + 1 := by
  rw [streak_concat, Deed.not_resets_of_isFailureOf hd, hd]
  rfl

/-- As long as nothing resets a key, the number of its failures does not fall. -/
theorem streak_le_append (hafter : ∀ d ∈ after, d.resets k = false) :
    streak k h ≤ streak k (h ++ after) := by
  induction after generalizing h with
  | nil => rw [List.append_nil]
  | cons d after ih =>
    have hd := hafter d List.mem_cons_self
    have hrest := ih (h := h ++ [d]) fun e he => hafter e (List.mem_cons_of_mem _ he)
    rw [streak_concat, hd, List.append_assoc, List.singleton_append] at hrest
    rw [if_neg Bool.false_ne_true] at hrest
    omega

variable [Seconds τ] {s t : Shift τ}

/-- The entry that a number of failures has in the counts; without failures there is none. -/
def tally (failures : Nat) : Option Nat := if failures = 0 then none else some failures

theorem getD_tally (failures : Nat) : (tally failures).getD 0 = failures := by
  unfold tally
  split
  · rename_i h
    exact h.symm
  · rfl

theorem Step.find?_failures_of_streak (hstep : Step s d t)
    (hs : s.worker.failures.find? k = tally (streak k h)) :
    t.worker.failures.find? k = tally (streak k (h ++ [d])) := by
  have hcount : s.worker.failureCount k = streak k h := by
    rw [Worker.failureCount, hs, getD_tally]
  rw [hstep.find?_failures, streak_concat, hs]
  cases d with
  | saw now event result =>
    show (if event.deletes k then none else _) = tally (if event.deletes k then 0 else _)
    split <;> rfl
  | ended l verdict result =>
    show (if (l == k) = true then _ else _) = tally (if (l == k && !verdict.isFailure) = true
      then 0 else streak k h + if (l == k && verdict.isFailure) = true then 1 else 0)
    cases l == k with
    | false => rfl
    | true =>
      cases verdict.isFailure with
      | true => exact congrArg (fun n => some (n + 1)) hcount
      | false => rfl
  | _ => rfl

/-- In every run that starts without keys, the failures of a key are counted as its history
says. -/
theorem Run.find?_failures (hrun : Run start h s) (k : ObjectKey) :
    s.worker.failures.find? k = tally (streak k h) := by
  induction hrun with
  | refl => rfl
  | step _ hstep ih => exact hstep.find?_failures_of_streak ih

theorem Run.failureCount (hrun : Run start h s) (k : ObjectKey) :
    s.worker.failureCount k = streak k h := by
  rw [Worker.failureCount, hrun.find?_failures, getD_tally]

end

/-! ## The delays -/

section

variable {r : Rat} {m n : Nat}

/-- The delay after a number of failures in a row, at least the given one. -/
def retryAfter (r : Rat) (failures : Nat) : Rat := max r (min (2 ^ (failures - 1) / 200) 300)

theorem backoff?_rat (doublings : Nat) :
    (Seconds.backoff? doublings : Option Rat) = some (2 ^ doublings / 200) := by
  show some (mkRat (Int.ofNat (twoTo doublings)) 200) = _
  rw [twoTo_eq_pow, Rat.mkRat_eq_div]
  simp

theorem retryDelay?_rat (failures : Nat) (r : Rat) :
    Worker.retryDelay? failures r = some (retryAfter r failures) := by
  rw [Worker.retryDelay?, backoff?_rat, Option.map_some, Seconds.longer_rat, Seconds.shorter_rat]
  rfl

theorem retryAfter_mono (h : m ≤ n) : retryAfter r m ≤ retryAfter r n := by
  unfold retryAfter
  have hpow : (2 : Rat) ^ (m - 1) ≤ 2 ^ (n - 1) :=
    pow_le_pow_right₀ one_le_two (Nat.sub_le_sub_right h 1)
  gcongr

theorem retryAfter_le (r : Rat) (n : Nat) : retryAfter r n ≤ max r 300 :=
  max_le_max_left r (min_le_right _ _)

variable {h : List (Deed Rat)} {s t : Shift Rat} {k : ObjectKey}

/-- A key that failed is added after the delay that belongs to the number of its failures in a
row, this one included. -/
theorem Step.added_of_failure {result : Except Breakdown Unit}
    (hstep : Step s (.ended k (.failed r) result) t) :
    (result, t.worker.queue) =
      s.worker.queue.add s.now k (retryAfter r (s.worker.failureCount k + 1)) := by
  cases hstep with
  | finish hhand =>
    rw [Worker.finish_eq, Worker.delayAfter?, retryDelay?_rat]
    rfl

/-- In every run that starts without keys, and for each key: the worker has counted the failures of
its reconciles since its object was last deleted or a reconcile of it ended otherwise. When a
further failure is dealt with, the key is added after exactly the delay that belongs to the number
of failures, this one included. As long as nothing resets the count, the delays do not fall, and
never exceed the limit. -/
theorem failures_in_a_row (hrun : Run start h s) (k : ObjectKey) :
    s.worker.failures.find? k = (if streak k h = 0 then none else some (streak k h)) ∧
      (∀ r result t, Step s (.ended k (.failed r) result) t →
        (result, t.worker.queue) =
          s.worker.queue.add s.now k (retryAfter r (streak k h + 1))) ∧
      ∀ before after l r result, h = before ++ .ended l (.failed r) result :: after →
        (l == k) = true → (∀ d ∈ after, d.resets k = false) →
        retryAfter r (streak k before + 1) ≤ retryAfter r (streak k h + 1) ∧
          retryAfter r (streak k h + 1) ≤ max r 300 := by
  refine ⟨hrun.find?_failures k, fun r result t hstep => ?_, ?_⟩
  · rw [← hrun.failureCount k]
    exact hstep.added_of_failure
  · rintro before after l r result rfl hlk hafter
    refine ⟨retryAfter_mono ?_, retryAfter_le r _⟩
    have hfirst : streak k (before ++ [.ended l (.failed r) result]) = streak k before + 1 :=
      streak_concat_failure (by simp [Deed.isFailureOf, Verdict.isFailure, hlk])
    have hrest := streak_le_append (h := before ++ [.ended l (.failed r) result]) hafter
    rw [hfirst, List.append_assoc, List.singleton_append] at hrest
    omega

theorem failures_in_a_row_nightly :
    ∃ (h : List (Deed Rat)) (s : Shift Rat), Run start h s ∧ streak Nightly.key h = 1 ∧
      s.worker.failures.find? Nightly.key = some 1 ∧
      retryAfter 0 (streak Nightly.key h + 1) = 1 / 100 := by
  have hfound : (Nightly.found (τ := Rat)).1 = some (.ok (some Nightly.key)) :=
    Nightly.eq_key_of_any (by decide +kernel)
  have hrun := ((Nightly.run_taken hfound).step (.read (.error .notFound) rfl)).step
    (.judge (.failed 0) rfl)
  have hended := hrun.step (.finish rfl)
  refine ⟨_, _, hended, ?_⟩
  obtain ⟨hcount, -⟩ := failures_in_a_row hended Nightly.key
  rw [hcount]
  decide +kernel

end

end Shift

end ClusterBackup
