import ClusterBackup.Polling
import ClusterBackup.Proofs.Clock.WholeSeconds
import Mathlib.Tactic.Ring
/-!
# The attempts of a polling

A polling makes its attempts one after the other, up to the first that is answered by true or with
an error, or to the last one allowed, and it pauses between two attempts and at no other time
(`attempts_up_to_the_last`). So pauses of one second, two seconds and so on add up to the sum of
the first whole numbers where no attempt succeeds.
-/

namespace ClusterBackup.Polling

variable {ε τ : Type} {answer : Nat → Except ε Bool} {delay : Nat → τ} {first more n : Nat}

/-! ## Transcripts -/

namespace Transcript

def append (t : Transcript τ) (ds : List (Deed τ)) : Transcript τ := ⟨t.deeds ++ ds⟩

@[simp] theorem note_append (t : Transcript τ) (d : Deed τ) (ds : List (Deed τ)) :
    (t.note d).append ds = t.append (d :: ds) := by
  simp [note, append]

theorem empty_append (ds : List (Deed τ)) : (⟨[]⟩ : Transcript τ).append ds = ⟨ds⟩ := rfl

end Transcript

/-- The attempts from the first one on, with a number of further ones. Each of these comes after
the pause that goes with the one before it. -/
def deedsFrom (delay : Nat → τ) (first more : Nat) : List (Deed τ) :=
  .attempt first :: (List.range' first more).flatMap fun i => [.pause (delay i), .attempt (i + 1)]

theorem deedsFrom_succ : deedsFrom delay first (more + 1) =
    .attempt first :: .pause (delay first) :: deedsFrom delay (first + 1) more := by
  simp [deedsFrom, List.range'_succ]

theorem checks_deedsFrom (delay : Nat → τ) (first more : Nat) :
    (⟨deedsFrom delay first more⟩ : Transcript τ).checks = List.range' first (more + 1) := by
  induction more generalizing first with
  | zero => rfl
  | succ more ih =>
    rw [deedsFrom_succ, List.range'_succ, ← ih]
    rfl

theorem pauses_deedsFrom (delay : Nat → τ) (first more : Nat) :
    (⟨deedsFrom delay first more⟩ : Transcript τ).pauses = (List.range' first more).map delay := by
  induction more generalizing first with
  | zero => rfl
  | succ more ih =>
    rw [deedsFrom_succ, List.range'_succ, List.map_cons, ← ih]
    rfl

/-! ## Runs -/

theorem run_check_bind {α : Type} (f : Bool → Recorded ε τ α) (n : Nat) (t : Transcript τ) :
    (Recorded.check answer n >>= f).run.run t =
      match answer n with
      | .ok b => (f b).run.run (t.note (.attempt n))
      | .error e => (.error e, t.note (.attempt n)) := by
  cases h : answer n with
  | error e =>
    simp only [Recorded.check, h]
    rfl
  | ok b =>
    simp only [Recorded.check, h]
    rfl

/-- A polling ends with an attempt that is answered otherwise than by false, or with the last one
allowed. -/
theorem run_pollFrom_of_end {left : Nat} (h : answer n ≠ .ok false ∨ left = 0) (delay : Nat → τ)
    (t : Transcript τ) :
    (pollFrom (Recorded.check answer) (Recorded.pause delay) (left + 1) n).run.run t =
      (answer n, t.note (.attempt n)) := by
  unfold pollFrom
  rw [run_check_bind]
  cases hanswer : answer n with
  | error e => rfl
  | ok b =>
    cases b with
    | true => rfl
    | false =>
      obtain rfl : left = 0 := h.resolve_left (fun hne => hne hanswer)
      rfl

/-- After an attempt that is answered by false and is not the last one comes the pause that goes
with it, and then the next attempt. -/
theorem run_pollFrom_of_false (h : answer n = .ok false) (delay : Nat → τ) (left : Nat)
    (t : Transcript τ) :
    (pollFrom (Recorded.check answer) (Recorded.pause delay) (left + 1 + 1) n).run.run t =
      (pollFrom (Recorded.check answer) (Recorded.pause delay) (left + 1) (n + 1)).run.run
        ((t.note (.attempt n)).note (.pause (delay n))) := by
  rw [pollFrom, run_check_bind, h]
  rfl

/-- The attempt of a number is the first one that is answered otherwise than by false, or the last
one allowed. -/
structure IsLastAttempt (answer : Nat → Except ε Bool) (attempts : Int) (k : Nat) : Prop where
  pos : 1 ≤ k
  le : k ≤ attempts
  before : ∀ i, 1 ≤ i → i < k → answer i = .ok false
  ends : answer k ≠ .ok false ∨ k = attempts

/-- With some attempts left, those are made that come before the first answer other than false. -/
theorem exists_run_pollFrom (answer : Nat → Except ε Bool) (delay : Nat → τ) (left n : Nat)
    (t : Transcript τ) :
    ∃ more ≤ left, (∀ i < more, answer (n + i) = .ok false) ∧
      (answer (n + more) ≠ .ok false ∨ more = left) ∧
      (pollFrom (Recorded.check answer) (Recorded.pause delay) (left + 1) n).run.run t =
        (answer (n + more), t.append (deedsFrom delay n more)) := by
  induction left generalizing n t with
  | zero =>
    refine ⟨0, le_rfl, fun i hi => absurd hi i.not_lt_zero, .inr rfl, ?_⟩
    exact run_pollFrom_of_end (.inr rfl) delay t
  | succ left ih =>
    by_cases hfalse : answer n = .ok false
    · obtain ⟨more, hle, hbefore, hends, hrun⟩ :=
        ih (n + 1) ((t.note (.attempt n)).note (.pause (delay n)))
      have hlast : n + 1 + more = n + (more + 1) := by omega
      rw [hlast] at hends hrun
      refine ⟨more + 1, by omega, ?_, hends.imp_right (congrArg (· + 1)), ?_⟩
      · intro i hi
        cases i with
        | zero => exact hfalse
        | succ i =>
          have hnext := hbefore i (by omega)
          rwa [Nat.add_right_comm, Nat.add_assoc] at hnext
      · rw [run_pollFrom_of_false hfalse, hrun, Transcript.note_append, Transcript.note_append,
          deedsFrom_succ]
    · refine ⟨0, Nat.zero_le _, fun i hi => absurd hi i.not_lt_zero, .inl hfalse, ?_⟩
      exact run_pollFrom_of_end (.inl hfalse) delay t

theorem replay?_of_nonpos {attempts : Int} (h : attempts ≤ 0) (answer : Nat → Except ε Bool)
    (delay : Nat → τ) : replay? attempts answer delay = none := by
  rw [replay?, poll?, if_pos h]
  rfl

theorem replay?_of_pos {attempts : Int} (h : 0 < attempts) (answer : Nat → Except ε Bool)
    (delay : Nat → τ) :
    ∃ k, IsLastAttempt answer attempts k ∧
      replay? attempts answer delay = some (answer k, ⟨deedsFrom delay 1 (k - 1)⟩) := by
  obtain ⟨left, hleft⟩ : ∃ left, attempts.toNat = left + 1 := ⟨attempts.toNat - 1, by omega⟩
  obtain ⟨more, hle, hbefore, hends, hrun⟩ := exists_run_pollFrom answer delay left 1 {}
  refine ⟨1 + more, ⟨by omega, by omega, ?_, hends.imp_right (by omega)⟩, ?_⟩
  · intro i hpos hi
    obtain ⟨j, rfl⟩ := Nat.exists_eq_add_of_le hpos
    exact hbefore j (by omega)
  · rw [replay?, poll?, if_neg (by omega), hleft, Option.map_some, hrun, Transcript.empty_append,
      Nat.add_sub_cancel_left]

theorem IsLastAttempt.eq_of_false {attempts : Int} {k : Nat} (h : IsLastAttempt answer attempts k)
    (hfalse : ∀ i : Nat, 1 ≤ i → i ≤ attempts → answer i = .ok false) : (k : Int) = attempts :=
  h.ends.resolve_left fun hne => hne (hfalse k h.pos h.le)

/-! ## Pauses of one second, two seconds and so on -/

theorem sum_range'_one (n : Nat) :
    ((List.range' 1 n).map fun i : Nat => (i : Rat)).sum = (n + 1) * n / 2 := by
  induction n with
  | zero => simp
  | succ n ih =>
    rw [List.range'_1_concat, List.map_append, List.sum_append, ih]
    push_cast
    simp
    ring

/-- Without a success the pauses add up, to any number of attempts. -/
theorem sum_pauses {attempts : Int} {k : Nat} (hk : (k : Int) = attempts) (hpos : 1 ≤ k) :
    (⟨deedsFrom (fun i : Nat => (i : Rat)) 1 (k - 1)⟩ : Transcript Rat).pauses.sum =
      attempts * (attempts - 1) / 2 := by
  obtain ⟨n, rfl⟩ := Nat.exists_eq_add_of_le' hpos
  rw [pauses_deedsFrom, Nat.add_sub_cancel, sum_range'_one, ← hk]
  push_cast
  ring

/-- As binary64 numbers the pauses are exact as long as there are no more than `2 ^ 53` attempts. -/
theorem quantity_pauses {k : Nat} (hk : k ≤ 2 ^ 53) :
    (⟨deedsFrom (fun i : Nat => (i : Binary64)) 1 (k - 1)⟩ : Transcript Binary64).pauses.map
        Binary64.quantity =
      (⟨deedsFrom (fun i : Nat => (i : Rat)) 1 (k - 1)⟩ : Transcript Rat).pauses.map .finite := by
  rw [pauses_deedsFrom, pauses_deedsFrom, List.map_map, List.map_map]
  apply List.map_congr_left
  intro i hi
  have hlt : i < 2 ^ 53 := by
    have hmem := List.mem_range'_1.1 hi
    omega
  exact Binary64.quantity_natCast hlt

/-! ## The whole polling -/

/-- A polling without attempts is refused before anything is done. Any other makes the attempts
from the first to the last one, where the last one is the first that is answered by true or with an
error, or else the last one allowed; it pauses between two of them for as long as the first of both
asks for; and its result is the answer to the last one. Where no attempt is answered by true or with
an error, pauses of one second, two seconds and so on add up to half the product of the number of
attempts and the one before it, as exact times and as binary64 numbers that are exact. -/
theorem attempts_up_to_the_last (attempts : Int) (answer : Nat → Except ε Bool)
    (delay : Nat → τ) :
    (attempts ≤ 0 → replay? attempts answer delay = none) ∧
    (0 < attempts → ∃ k t, IsLastAttempt answer attempts k ∧
      replay? attempts answer delay = some (answer k, t) ∧
      t.deeds = .attempt 1 ::
        (List.range' 1 (k - 1)).flatMap (fun i => [.pause (delay i), .attempt (i + 1)]) ∧
      t.checks = List.range' 1 k ∧ t.pauses = (List.range' 1 (k - 1)).map delay) ∧
    (0 < attempts → (∀ i : Nat, 1 ≤ i → i ≤ attempts → answer i = .ok false) →
      ∃ t u, replay? attempts answer (fun i : Nat => (i : Rat)) = some (.ok false, t) ∧
        replay? attempts answer (fun i : Nat => (i : Binary64)) = some (.ok false, u) ∧
        t.pauses.sum = attempts * (attempts - 1) / 2 ∧
        (attempts ≤ 2 ^ 53 → u.pauses.map Binary64.quantity = t.pauses.map .finite)) := by
  refine ⟨fun h => replay?_of_nonpos h answer delay, fun h => ?_, fun h hfalse => ?_⟩
  · obtain ⟨k, hlast, hreplay⟩ := replay?_of_pos h answer delay
    have hpos := hlast.pos
    have hk : k - 1 + 1 = k := by omega
    refine ⟨k, _, hlast, hreplay, rfl, ?_, pauses_deedsFrom ..⟩
    rw [checks_deedsFrom, hk]
  · obtain ⟨k, hlast, hreplay⟩ := replay?_of_pos h answer fun i : Nat => (i : Rat)
    obtain ⟨l, hlast', hreplay'⟩ := replay?_of_pos h answer fun i : Nat => (i : Binary64)
    have hk := hlast.eq_of_false hfalse
    have hl := hlast'.eq_of_false hfalse
    rw [hfalse k hlast.pos hlast.le] at hreplay
    rw [hfalse l hlast'.pos hlast'.le] at hreplay'
    obtain rfl : l = k := by omega
    exact ⟨_, _, hreplay, hreplay', sum_pauses hk hlast.pos,
      fun hle => quantity_pauses (by omega)⟩

example : replay? 5 (fun i => (.ok (i == 3) : Except Unit Bool)) (fun i => i) =
    some (.ok true, ⟨[.attempt 1, .pause 1, .attempt 2, .pause 2, .attempt 3]⟩) := rfl

end ClusterBackup.Polling
