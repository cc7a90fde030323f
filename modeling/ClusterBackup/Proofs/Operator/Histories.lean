import ClusterBackup.Proofs.Operator.Steps
import ClusterBackup.Proofs.Worker.Streaks
/-!
# What an operator tells

The failures of a key in a row, and the times that it was taken, are the same in what an operator
tells and in the history of its steps. So an operator counts failures as it tells of them
(`InTurn.find?_failures`), a look at the queue draws from a reconcile what is due to that count
(`InTurn.work_of_taken`), and a backup that was deleted stays away (`InTurn.lacks`).
-/

namespace ClusterBackup

open Shift (streak tally retryAfter Step)

namespace Deed

variable {τ : Type} {k : ObjectKey} {d : Deed τ}

theorem resets_of_not_told (h : d.isTold = false) : d.resets k = false := by
  cases d with
  | saw => cases h
  | ended => cases h
  | _ => rfl

theorem isFailureOf_of_not_told (h : d.isTold = false) : d.isFailureOf k = false := by
  cases d with
  | ended => cases h
  | _ => rfl

theorem isTold_of_takes (h : d.takes k = true) : d.isTold = true := by
  cases d with
  | looked found =>
    cases found with
    | none => cases h
    | some found => rfl
  | _ => cases h

theorem isTold_of_changes (h : d.changes k = true) : d.isTold = true := by
  cases d with
  | saw => rfl
  | _ => cases h

end Deed

namespace Shift

variable {τ : Type}

theorem streak_filter_isTold (k : ObjectKey) (h : List (Deed τ)) :
    streak k (h.filter Deed.isTold) = streak k h := by
  induction h using List.reverseRecOn with
  | nil => rfl
  | append_singleton h d ih =>
    rw [List.filter_append, streak_concat]
    cases hd : d.isTold with
    | true => rw [List.filter_singleton, hd, Bool.cond_true, streak_concat, ih]
    | false =>
      rw [List.filter_singleton, hd, Bool.cond_false, List.append_nil, ih,
        Deed.resets_of_not_told hd, Deed.isFailureOf_of_not_told hd]
      rfl

theorem countP_takes_filter_isTold (k : ObjectKey) (h : List (Deed τ)) :
    (h.filter Deed.isTold).countP (·.takes k) = h.countP (·.takes k) := by
  rw [List.countP_filter]
  apply List.countP_congr
  intro d _
  simpa using Deed.isTold_of_takes

end Shift

namespace Operator

section

variable {τ : Type} [Seconds τ] {settings : Settings τ} {first o : Operator τ}
variable {told : List (Deed τ)} {k : ObjectKey} {timeout : Option τ} {event : Event}

theorem InTurn.find?_failures (ho : InTurn (.start settings) told o) (k : ObjectKey) :
    o.worker.failures.find? k = tally (streak k told) := by
  obtain ⟨h, hrun, rfl, -⟩ := ho.exists_run
  rw [Shift.streak_filter_isTold]
  exact hrun.find?_failures k

/-- A run of the controller counts the failures that it tells of. -/
theorem find?_failures_run {streams : List Stream} {looks : Nat} {stop : Bool} {report : RunReport}
    (hok : ((start settings).run streams looks stop).1 = .ok report) (k : ObjectKey) :
    ((start settings).run streams looks stop).2.worker.failures.find? k =
      tally (streak k ((start settings).runDeeds streams looks stop)) :=
  (InTurn.run hok).find?_failures k

/-- A backup that was deleted is not taken, and nothing is left of it, as long as no event says that
it is there again. -/
theorem InTurn.lacks (hdeletes : event.deletes k = true)
    (ho : InTurn (first.observe event).2 told o) (hquiet : ∀ d ∈ told, d.changes k = false) :
    told.countP (·.takes k) = 0 ∧ o.worker.queue.deadline? k = none ∧
      o.worker.failures.find? k = none := by
  obtain ⟨h, hrun, rfl, -⟩ := ho.exists_run
  have hquiet' : ∀ d ∈ h, d.changes k = false := by
    intro d hd
    by_contra hchanges
    have htold := Deed.isTold_of_changes (Bool.eq_true_of_not_eq_false hchanges)
    exact hchanges (hquiet d (List.mem_filter.2 ⟨hd, htold⟩))
  obtain ⟨-, hqueue, hfailures⟩ := (step_observe first event .free).deleted hdeletes
  obtain ⟨hlacks, hnone⟩ := hrun.lacks ⟨rfl, hqueue, hfailures⟩ hquiet'
  exact ⟨(Shift.countP_takes_filter_isTold k h).trans hnone, hlacks.queue, hlacks.failures⟩

def reconciled (o : Operator τ) (timeout : Option τ) (k : ObjectKey) :
    Except Fault Outcome × Operator τ :=
  (o.takeKey timeout).2.reconcileKey k

theorem worker_work_of_taken (hk : (o.takeKey timeout).1 = .ok (some k)) :
    (o.work timeout).2.worker =
      ((o.takeKey timeout).2.worker.finish (o.reconciled timeout k).2.session.now k
        (.ofResult o.settings.requeueAfter (o.reconciled timeout k).1)).2 := by
  rw [work_of_some hk]
  rfl

theorem failures_takeKey (o : Operator τ) (timeout : Option τ) :
    (o.takeKey timeout).2.worker.failures = o.worker.failures := rfl

end

end Operator

namespace Worker

theorem find?_failures_finish {τ : Type} [Seconds τ] (w : Worker τ) (now : τ) (k : ObjectKey)
    (verdict : Verdict τ) :
    (w.finish now k verdict).2.failures.find? k =
      if verdict.isFailure then some (w.failureCount k + 1) else none := by
  rw [failures_finish, find?_failures_account, if_pos BEq.rfl]

theorem queue_finish_failed (w : Worker Rat) (now : Rat) (k : ObjectKey) (least : Rat) :
    (w.finish now k (.failed least)).2.queue =
      (w.queue.add now k (retryAfter least (w.failureCount k + 1))).2 := by
  rw [queue_finish, delayAfter?, Shift.retryDelay?_rat]

end Worker

namespace Operator

variable {settings : Settings Rat} {o : Operator Rat} {told : List (Deed Rat)} {k : ObjectKey}
variable {timeout : Option Rat}

/-- What is drawn from the reconcile of a key that was found. A fault or a failure is counted, and
the key is added after the delay that belongs to the number of failures in a row that were told of,
this one included. Any other end forgives them, and the key is added after the usual delay unless
its object is gone. -/
theorem InTurn.work_of_taken (ho : InTurn (.start settings) told o)
    (hk : (o.takeKey timeout).1 = .ok (some k)) :
    let queue := (o.takeKey timeout).2.worker.queue
    let now := (o.reconciled timeout k).2.session.now
    let worker := (o.work timeout).2.worker
    match (o.reconciled timeout k).1 with
    | .error _ | .ok (.failed _) =>
      worker.failures.find? k = some (streak k told + 1) ∧
        worker.queue =
          (queue.add now k (retryAfter settings.requeueAfter (streak k told + 1))).2
    | .ok .settled =>
      worker.failures.find? k = none ∧
        worker.queue = (queue.add now k settings.requeueAfter).2
    | .ok .gone => worker.failures.find? k = none ∧ worker.queue = queue := by
  have hcount : (o.takeKey timeout).2.worker.failureCount k = streak k told := by
    rw [Worker.failureCount, failures_takeKey, ho.find?_failures, Shift.getD_tally]
  have hsettings : o.settings = settings := ho.settings_eq
  dsimp only
  rw [worker_work_of_taken hk, hsettings, ← hcount]
  generalize (o.takeKey timeout).2.worker = w
  generalize (o.reconciled timeout k).2.session.now = now
  cases (o.reconciled timeout k).1 with
  | error f => exact ⟨w.find?_failures_finish now k _, w.queue_finish_failed now k _⟩
  | ok outcome =>
    cases outcome with
    | failed => exact ⟨w.find?_failures_finish now k _, w.queue_finish_failed now k _⟩
    | settled => exact ⟨w.find?_failures_finish now k _, w.queue_finish now k _⟩
    | gone => exact ⟨w.find?_failures_finish now k _, w.queue_finish now k _⟩

end Operator

end ClusterBackup
