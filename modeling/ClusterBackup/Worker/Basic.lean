import ClusterBackup.Api.ObjectKey
import ClusterBackup.Queue.Basic
import ClusterBackup.Reconcile.Basic
import ClusterBackup.Worker.Event
/-!
# The worker

The worker takes keys from its queue, has each reconciled, and puts it back: after the usual delay
when all is well, and with growing delays as long as it fails. Failures are counted by key, and
the count starts anew with a success.
-/

namespace ClusterBackup

instance : Ranked ObjectKey := ⟨ObjectKey.before?⟩

/-- How a reconcile ends for the worker: the object is gone, it is to be looked at again after a
delay, or it failed, the delay being the least before the next try. -/
inductive Verdict (τ : Type) where
  | gone
  | settled (after : τ)
  | failed (after : τ)
deriving DecidableEq

/-- The verdict on a reconcile. A fault counts as a failure. -/
def Verdict.ofResult {τ : Type} (usual : τ) : Except Fault Outcome → Verdict τ
  | .ok .gone => gone
  | .ok .settled => settled usual
  | .ok (.failed _) => failed usual
  | .error _ => failed usual

/-- A worker: the queue of its keys, and the number of failures in a row by key. -/
structure Worker (τ : Type) where
  queue : Queue τ ObjectKey
  failures : Table ObjectKey Nat

namespace Worker

variable {τ : Type}

def idle : Worker τ := ⟨.empty, .empty⟩

def failureCount (w : Worker τ) (k : ObjectKey) : Nat := (w.failures.find? k).getD 0

def forgive (w : Worker τ) (k : ObjectKey) : Worker τ :=
  { w with failures := w.failures.erase k }

def blame (w : Worker τ) (k : ObjectKey) : Worker τ :=
  { w with failures := w.failures.insert k (w.failureCount k + 1) }

def failureCounts? (w : Worker τ) : Option (List (ObjectKey × Nat)) := w.failures.sorted?

variable [Seconds τ]

def backoffLimit : τ := ((300 : Nat) : τ)

/-- The delay after a number of failures in a row: five milliseconds after the first, doubled with
each further one up to a limit, and at least the delay given. -/
def retryDelay? (failures : Nat) (least : τ) : Option τ :=
  (Seconds.backoff? (failures - 1)).map fun backoff =>
    Seconds.longer least (Seconds.shorter backoff backoffLimit)

def schedule (w : Worker τ) (now : τ) (k : ObjectKey) (delay : τ) :
    Except Breakdown Unit × Worker τ :=
  let (result, queue) := w.queue.add now k delay
  (result, { w with queue })

/-- Takes note that an object was deleted. Without any keys to forget, its parts are not looked
at. -/
def forget (w : Worker τ) (ns name : Json) : Except Breakdown Unit × Worker τ :=
  match ObjectKey.of? ns name with
  | some k => (.ok (), { w with queue := w.queue.discard k }.forgive k)
  | none => (if w.queue.size = 0 ∧ w.failures.size = 0 then .ok () else .error .noKey, w)

def observe (w : Worker τ) (now : τ) : Event → Except Breakdown Unit × Worker τ
  | .changed ns name =>
    let (result, queue) := w.queue.offer now (ObjectKey.of? ns name) Seconds.zero
    (result, { w with queue })
  | .deleted ns name => w.forget ns name
  | .nothing => (.ok (), w)

def fail (w : Worker τ) (k : ObjectKey) (least : τ) : Option τ × Worker τ :=
  let w := w.blame k
  (retryDelay? (w.failureCount k) least, w)

def finish (w : Worker τ) (now : τ) (k : ObjectKey) : Verdict τ → Except Breakdown Unit × Worker τ
  | .gone => (.ok (), w.forgive k)
  | .settled after => (w.forgive k).schedule now k after
  | .failed least =>
    match w.fail k least with
    | (some delay, w) => w.schedule now k delay
    | (none, w) => (.error .beyondRange, w)

end Worker

end ClusterBackup
