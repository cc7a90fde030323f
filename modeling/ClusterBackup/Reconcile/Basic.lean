import ClusterBackup.Api.ObjectKey
import ClusterBackup.Reconcile.Lookup
import ClusterBackup.Reconcile.Recording
import ClusterBackup.Reconcile.Volume
import ClusterBackup.Settings.Basic
/-!
# Reconciling a backup

One reconcile brings the volume, the job and the record of a backup in line with what is wanted.
-/

namespace ClusterBackup

variable {τ : Type} [NatCast τ]

/-- How a reconcile ends: the backup is not there any more, it is as wanted, or something is in
the way. -/
inductive Outcome where
  | gone
  | settled
  | failed (o : Obstacle)
deriving DecidableEq

/-- Brings what belongs to a backup in line. Claims are polled with pauses of one second, two
seconds and so on. -/
def carryOut (settings : Settings τ) (b : Backup) : Task τ Unit := do
  let cluster ← lookUpCluster b.ns b.cluster
  match cluster.backup with
  | none => Task.fail (.backupNotSetUp cluster.name)
  | some _ =>
    let profile ← Task.require id (cluster.profile b.profile)
    let destination ← Task.require id (Destination.ofProfile b profile settings.claimName)
    if let .filesystem template := profile then
      Volume.provide settings.bindAttempts (fun n => (n : τ)) b template settings.claimName
    let job ← Task.require Stop.ofJobError
      (Job.forBackup b cluster destination settings.jobBackoffLimit)
    discard (submit job)
    discard (recordProgress b (Job.nameFor b) destination)

def Outcome.ofResult : Except Stop Unit → Except Fault Outcome
  | .ok () => .ok .settled
  | .error (.obstacle f) => .ok (.failed f)
  | .error (.fault f) => .error f

def reconcileNamed (settings : Settings τ) (ns name : Json) :
    Api.Program τ (Except Fault Outcome) := do
  let call := Api.Call.getBackup ns name
  match ← Api.Program.ask call with
  | .error f =>
    let e : Api.CallError := ⟨call, f⟩
    return .ok (if e.isNotFound then .gone else .failed (.backupUnreadable e))
  | .ok object =>
    match Backup.ofJson object with
    | .error e => return .error (.ofBackupError e)
    | .ok b => return Outcome.ofResult (← (carryOut settings b).run)

def reconcile (settings : Settings τ) (key : ObjectKey) : Api.Program τ (Except Fault Outcome) :=
  reconcileNamed settings key.ns key.name

end ClusterBackup
