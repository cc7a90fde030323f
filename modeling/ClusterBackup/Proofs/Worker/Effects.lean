import ClusterBackup.Proofs.Queue.Deadlines
/-!
# Effects on a worker

What events and verdicts do to the deadlines and the failure counts of a worker, key by key. An
event that an object changed never makes its key due later, and what is drawn from a verdict never
does either: it counts or forgives the failures of the key, and may add the key to the queue.
-/

namespace ClusterBackup

variable {τ : Type}

def Verdict.isFailure : Verdict τ → Bool
  | failed _ => true
  | _ => false

theorem Verdict.ofResult_cases (usual : τ) (result : Except Fault Outcome) :
    ofResult usual result = gone ∨ ofResult usual result = settled usual ∨
      ofResult usual result = failed usual := by
  cases result with
  | error => exact .inr (.inr rfl)
  | ok outcome =>
    cases outcome with
    | gone => exact .inl rfl
    | settled => exact .inr (.inl rfl)
    | failed => exact .inr (.inr rfl)

namespace Event

def changes (k : ObjectKey) : Event → Bool
  | changed ns name => (ObjectKey.of? ns name).any (· == k)
  | _ => false

def deletes (k : ObjectKey) : Event → Bool
  | deleted ns name => (ObjectKey.of? ns name).any (· == k)
  | _ => false

end Event

namespace Worker

variable {w : Worker τ} {k l : ObjectKey}

/-! ## Failure counts -/

@[simp] theorem failureCount_blame (w : Worker τ) (k : ObjectKey) :
    (w.blame k).failureCount k = w.failureCount k + 1 := by
  simp [blame, failureCount]

/-- The worker after the failures of a key were counted or forgiven. -/
def account (w : Worker τ) (k : ObjectKey) (verdict : Verdict τ) : Worker τ :=
  if verdict.isFailure then w.blame k else w.forgive k

@[simp] theorem queue_account (verdict : Verdict τ) : (w.account k verdict).queue = w.queue := by
  unfold account
  split <;> rfl

theorem find?_failures_account (verdict : Verdict τ) :
    (w.account k verdict).failures.find? l =
      if k == l then if verdict.isFailure then some (w.failureCount k + 1) else none
      else w.failures.find? l := by
  unfold account
  cases verdict.isFailure with
  | true => exact Table.find?_insert ..
  | false => exact Table.find?_erase ..

variable [Seconds τ] {now : τ}

/-! ## Events -/

/-- A key stays without a failure count only if it is deleted, and events give it none. -/
theorem find?_failures_observe (w : Worker τ) (now : τ) (event : Event) (k : ObjectKey) :
    (w.observe now event).2.failures.find? k =
      if event.deletes k then none else w.failures.find? k := by
  cases event with
  | changed ns name => rfl
  | nothing => rfl
  | deleted ns name =>
    show (w.forget ns name).2.failures.find? k =
      if (ObjectKey.of? ns name).any (· == k) then none else _
    unfold forget
    cases ObjectKey.of? ns name with
    | none => rfl
    | some l => exact Table.find?_erase ..

/-- An event takes the key of a deleted object out of the queue, makes that of a changed one due
at once, and leaves the others as they are. -/
theorem deadline?_observe (w : Worker τ) (now : τ) (event : Event) (k : ObjectKey) :
    (w.observe now event).2.queue.deadline? k =
      if event.deletes k then none
      else if event.changes k then
        match Seconds.later? now (Seconds.longer Seconds.zero Seconds.zero) with
        | some due => some (Queue.earliest (w.queue.deadline? k) due)
        | none => w.queue.deadline? k
      else w.queue.deadline? k := by
  cases event with
  | nothing => rfl
  | deleted ns name =>
    show (w.forget ns name).2.queue.deadline? k =
      if (ObjectKey.of? ns name).any (· == k) then none else if false = true then _ else _
    unfold forget
    cases ObjectKey.of? ns name with
    | none => rfl
    | some l => exact Queue.deadline?_discard l k
  | changed ns name =>
    show (w.queue.offer now (ObjectKey.of? ns name) Seconds.zero).2.deadline? k =
      if false = true then none else if (ObjectKey.of? ns name).any (· == k) then _ else _
    rw [if_neg Bool.false_ne_true]
    cases ObjectKey.of? ns name with
    | none =>
      unfold Queue.offer
      cases Seconds.later? now (Seconds.longer Seconds.zero Seconds.zero) <;> rfl
    | some l =>
      refine (Queue.deadline?_add w.queue now l k Seconds.zero).trans ?_
      cases Seconds.later? now (Seconds.longer Seconds.zero Seconds.zero) with
      | none => exact (ite_self _).symm
      | some due =>
        show (if (l == k) = true then some (Queue.earliest (w.queue.deadline? l) due) else _) =
          if (l == k) = true then some (Queue.earliest (w.queue.deadline? k) due) else _
        split
        · rename_i hlk
          rw [Queue.deadline?_congr hlk]
        · rfl

/-! ## Verdicts -/

@[simp] theorem queue_schedule (w : Worker τ) (now : τ) (k : ObjectKey) (delay : τ) :
    (w.schedule now k delay).2.queue = (w.queue.add now k delay).2 := rfl

/-- The delay after which a key is to be looked at again, given the number of its failures in a
row before; none if it is gone, or if the delay has no number. -/
def delayAfter? (failures : Nat) : Verdict τ → Option τ
  | .gone => none
  | .settled after => some after
  | .failed least => retryDelay? (failures + 1) least

/-- What is drawn from a verdict: the failures are counted or forgiven, and the key is added if
there is a delay for it. -/
theorem finish_eq (w : Worker τ) (now : τ) (k : ObjectKey) (verdict : Verdict τ) :
    w.finish now k verdict =
      match delayAfter? (w.failureCount k) verdict with
      | some delay => (w.account k verdict).schedule now k delay
      | none => (if verdict.isFailure then .error .beyondRange else .ok (),
          w.account k verdict) := by
  cases verdict with
  | gone => rfl
  | settled after => rfl
  | failed least =>
    unfold finish fail
    simp only [failureCount_blame, delayAfter?]
    cases retryDelay? (w.failureCount k + 1) least <;> rfl

theorem failures_finish (w : Worker τ) (now : τ) (k : ObjectKey) (verdict : Verdict τ) :
    (w.finish now k verdict).2.failures = (w.account k verdict).failures := by
  rw [finish_eq]
  split <;> rfl

theorem queue_finish (w : Worker τ) (now : τ) (k : ObjectKey) (verdict : Verdict τ) :
    (w.finish now k verdict).2.queue =
      match delayAfter? (w.failureCount k) verdict with
      | some delay => (w.queue.add now k delay).2
      | none => w.queue := by
  rw [finish_eq]
  split
  · rw [queue_schedule, queue_account]
  · exact queue_account verdict

theorem failureCount_finish_failed (w : Worker τ) (now : τ) (k : ObjectKey) (least : τ) :
    (w.finish now k (.failed least)).2.failureCount k = w.failureCount k + 1 := by
  rw [failureCount, failures_finish]
  exact failureCount_blame w k

theorem deadline?_finish_of_ne (h : (k == l) = false) (verdict : Verdict τ) :
    (w.finish now k verdict).2.queue.deadline? l = w.queue.deadline? l := by
  rw [queue_finish]
  split
  · exact Queue.deadline?_add_of_ne h
  · rfl

theorem isSome_deadline?_of_ok {verdict : Verdict τ} (hfail : verdict.isFailure = true)
    (hok : (w.finish now k verdict).1 = .ok ()) :
    ((w.finish now k verdict).2.queue.deadline? k).isSome = true := by
  rw [finish_eq] at hok
  rw [queue_finish]
  split
  · rename_i delay hdelay
    rw [hdelay] at hok
    refine Queue.isSome_deadline?_of_add ?_
    rw [← queue_account (k := k) verdict]
    exact hok
  · rename_i hdelay
    rw [hdelay, hfail] at hok
    cases hok

theorem isSome_deadline?_finish (verdict : Verdict τ) (h : (w.queue.deadline? l).isSome = true) :
    ((w.finish now k verdict).2.queue.deadline? l).isSome = true := by
  rw [queue_finish]
  split
  · exact Queue.isSome_deadline?_add h
  · exact h

end Worker

end ClusterBackup
