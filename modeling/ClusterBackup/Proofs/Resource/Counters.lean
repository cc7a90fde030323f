import ClusterBackup.Progress
import Mathlib.Logic.Relation
/-!
# Counters of a job

How the counters of a job go on when it runs one pod at a time and never starts a pod a second time.
A pod that fails is followed by another one, up to a limit. The job is done with the first pod that
succeeds, or with one failure more than the limit (`Counters.IsDone`), and then its counters stay.

The stage that is seen in the counters is the outcome of a job that is done, except for a failure
after retries. A first failure is seen as final whether there are retries or not.
-/

namespace ClusterBackup

structure Counters where
  active : Nat
  succeeded : Nat
  failed : Nat
deriving DecidableEq

namespace Counters

variable {n : Nat} {c d : Counters} {status : Option Api.JobStatus}

def zero : Counters := ⟨0, 0, 0⟩

/-- The counters of a job whose first pod has failed, and no other one has been started. -/
def failedOnce : Counters := ⟨0, 0, 1⟩

def IsDone (n : Nat) (c : Counters) : Prop := c.succeeded = 1 ∨ c.failed = n + 1

/-- A pod is started, or the pod that is active fails or succeeds. -/
inductive Step (n : Nat) : Counters → Counters → Prop where
  | start {c : Counters} (hidle : c.active = 0) (hdone : ¬ c.IsDone n) :
      Step n c { c with active := 1 }
  | fail {c : Counters} (hactive : c.active = 1) :
      Step n c { c with active := 0, failed := c.failed + 1 }
  | succeed {c : Counters} (hactive : c.active = 1) :
      Step n c { c with active := 0, succeeded := c.succeeded + 1 }

def Reaches (n : Nat) : Counters → Counters → Prop := Relation.ReflTransGen (Step n)

/-- What counters keep to: one pod at a time, and none once the job is done. -/
structure Sound (n : Nat) (c : Counters) : Prop where
  active : c.active ≤ 1
  succeeded : c.succeeded ≤ 1
  failed : c.failed ≤ n + 1
  idle : c.IsDone n → c.active = 0
  single : c.succeeded = 1 → c.failed ≤ n

theorem sound_zero (n : Nat) : zero.Sound n := by
  constructor <;> simp [zero]

theorem sound_failedOnce (n : Nat) : failedOnce.Sound n := by
  constructor <;> simp [failedOnce]

theorem Sound.step (hc : c.Sound n) (hs : Step n c d) : d.Sound n := by
  obtain ⟨hactive, hsucceeded, hfailed, hidle, hsingle⟩ := hc
  have hopen : ¬ c.IsDone n := by
    cases hs with
    | start _ hdone => exact hdone
    | fail h =>
      intro hdone
      rw [hidle hdone] at h
      cases h
    | succeed h =>
      intro hdone
      rw [hidle hdone] at h
      cases h
  unfold IsDone at hopen
  cases hs <;> constructor <;> simp only [IsDone, implies_true] <;> omega

theorem Sound.reaches (hc : c.Sound n) (hr : Reaches n c d) : d.Sound n := by
  induction hr with
  | refl => exact hc
  | tail _ hs ih => exact ih.step hs

theorem Sound.eq_of_isDone (hc : c.Sound n) (hdone : c.IsDone n) (hr : Reaches n c d) : d = c := by
  induction hr with
  | refl => rfl
  | tail _ hs ih =>
    subst ih
    have hidle := hc.idle hdone
    cases hs with
    | start _ hopen => exact absurd hdone hopen
    | fail hactive => omega
    | succeed hactive => omega

/-- A job that is not tried again is done once its pod has failed. -/
theorem eq_failedOnce_of_reaches (hr : Reaches 0 failedOnce d) : d = failedOnce :=
  (sound_failedOnce 0).eq_of_isDone (.inr rfl) hr

/-! ## Stages -/

def progress (c : Counters) (completedAt : Json) : Progress :=
  ⟨.int c.active, .int c.succeeded, .int c.failed, completedAt⟩

def Shows (status : Option Api.JobStatus) (c : Counters) : Prop :=
  ∃ completedAt, Progress.ofStatus? status = some (c.progress completedAt)

theorem shows_blank : Shows (some .blank) zero := ⟨.null, rfl⟩

theorem Shows.eq (hc : Shows status c) (hd : Shows status d) : c = d := by
  obtain ⟨t, ht⟩ := hc
  obtain ⟨t', ht'⟩ := hd
  rw [ht, Option.some.injEq] at ht'
  simp only [progress, Progress.mk.injEq, Json.int.injEq, Int.ofNat_inj] at ht'
  obtain ⟨hactive, hsucceeded, hfailed, -⟩ := ht'
  cases c
  cases d
  simp_all

def stage (c : Counters) : Stage :=
  if c.active = 1 then .running
  else if c.succeeded = 1 then .succeeded
  else if c.failed = 1 then .failed
  else .starting

theorem stage_progress (c : Counters) (completedAt : Json) :
    (c.progress completedAt).stage = c.stage := by
  have hone : ∀ k : Nat, (k : Int) = 1 ↔ k = 1 := fun k => by omega
  simp only [Progress.stage, progress, Json.equals_int, decide_eq_true_eq, hone, stage]

theorem Sound.stage_of_succeeded (hc : c.Sound n) (h : c.succeeded = 1) : c.stage = .succeeded := by
  have hidle := hc.idle (.inl h)
  simp [stage, hidle, h]

theorem Sound.stage_of_failed (hc : c.Sound n) (h : c.failed = n + 1) :
    c.stage = if n = 0 then .failed else .starting := by
  have hidle := hc.idle (.inr h)
  have hnone : c.succeeded ≠ 1 := fun hs => by
    have := hc.single hs
    omega
  simp [stage, hidle, hnone, h]

theorem Sound.eq_failedOnce (hc : c.Sound n) (h : c.stage = .failed) : c = failedOnce := by
  obtain ⟨active, succeeded, failed⟩ := c
  have hactive : active ≤ 1 := hc.active
  have hsucceeded : succeeded ≤ 1 := hc.succeeded
  by_cases h1 : active = 1
  · simp [stage, h1] at h
  · by_cases h2 : succeeded = 1
    · simp [stage, h1, h2] at h
    · by_cases h3 : failed = 1
      · rw [failedOnce, Counters.mk.injEq]
        omega
      · simp [stage, h1, h2, h3] at h

theorem succeeded_of_stage (h : c.stage = .succeeded) : c.succeeded = 1 := by
  by_cases hs : c.succeeded = 1
  · exact hs
  · unfold stage at h
    rw [if_neg hs] at h
    split at h
    · cases h
    · split at h <;> cases h

end Counters

end ClusterBackup
