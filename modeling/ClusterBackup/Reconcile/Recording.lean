import ClusterBackup.Reconcile.Task
/-!
# Submitting a job and recording its progress
-/

namespace ClusterBackup

variable {τ : Type}

def bodyNamespace {σ : Type} (body : Resource σ) : Json :=
  match body.metadata with
  | some m => m.ns
  | none => .null

/-- Creates a job unless it is there, and tells whether it was created. -/
def submit (job : Job) : Task τ Bool := do
  match ← Task.ask (.createJob (bodyNamespace job) job) with
  | .ok () => return true
  | .error e => if e.isDuplicate then return false else Task.fail (.jobNotCreated e)

def writeRecord (b : Backup) (r : Record) : Task τ Unit := do
  match ← Task.ask (.replaceStatus ⟨b.ns, b.name, b.version, r⟩) with
  | .ok () => return
  | .error e => Task.fail (.recordNotWritten e)

/-- Brings the record of a backup up to date with its job, and gives the record that then stands.
There is nothing to record when the job is gone. -/
def recordProgress (b : Backup) (job : String) (d : Destination) : Task τ (Option Record) := do
  match ← Task.ask (.readJob b.ns (.str job)) with
  | .error e => if e.isNotFound then return none else Task.fail (.jobUnreadable e)
  | .ok status =>
    match Progress.ofStatus? status with
    | none => throw (.fault .beyondCalendar)
    | some progress =>
      let candidate := Record.ofProgress progress d b.profile
      let closed ← Task.require (fun e => .fault (.malformed e))
        (Record.isClosedTo b.record candidate)
      if closed then return b.record
      else
        if candidate.differsFrom b.record then writeRecord b candidate
        return some candidate

end ClusterBackup
