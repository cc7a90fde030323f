import ClusterBackup.Polling
import ClusterBackup.Progress
/-!
# What stops a reconcile

An obstacle is a condition that a reconcile reports, to be tried again. A fault is a condition
that it does not foresee.
-/

namespace ClusterBackup

/-- A condition that a reconcile reports. -/
inductive Obstacle where
  | backupUnreadable (e : Api.CallError)
  | clustersUnreadable (e : Api.CallError)
  | noSuchCluster (name : Json) (available : List Json)
  | backupNotSetUp (cluster : Json)
  | noSuchProfile (name : Json) (available : List String)
  | unknownKind (profile : Json) (kind : String)
  | ownership (e : OwnershipError)
  | claimUnreadable (e : Api.CallError)
  | claimNotCreated (e : Api.CallError)
  | phaseUnreadable (e : Api.CallError)
  | claimNotBound (claim : String) (phase : Json) (attempts : Int)
  | jobNotCreated (e : Api.CallError)
  | jobUnreadable (e : Api.CallError)
  | recordNotWritten (e : Api.CallError)
deriving DecidableEq

def Obstacle.message : Obstacle → String
  | backupUnreadable e => e.message
  | clustersUnreadable e => "get clusters list: " ++ e.message
  | noSuchCluster name available =>
    "wrong cluster name: " ++ name.literal ++ ". Clusters available: " ++
      (Json.arr available).literal
  | backupNotSetUp cluster =>
    "cluster " ++ cluster.literal ++
      " has no backup section; a backup image should be set in the PXC config"
  | noSuchProfile name available =>
    "storage profile " ++ name.literal ++ " doesn't exist. Profiles available: " ++
      (Json.arr (available.map Json.str)).literal
  | unknownKind profile kind =>
    "storage profile " ++ profile.literal ++ " has unsupported type " ++ Text.quoted kind
  | ownership e => e.message
  | claimUnreadable e => "get pvc: " ++ e.message
  | claimNotCreated e => "create backup pvc: " ++ e.message
  | phaseUnreadable e => "get pvc status: " ++ e.message
  | claimNotBound claim phase attempts =>
    "pvc " ++ claim ++ " not ready after " ++ toString attempts ++ " checks, status: " ++ phase.text
  | jobNotCreated e => "create backup job: " ++ e.message
  | jobUnreadable e => "get backup status: " ++ e.message
  | recordNotWritten e => "update backup status: " ++ e.message

/-- A condition that is not foreseen. -/
inductive Fault where
  | malformed (e : Malformed)
  | creation (e : CreationError)
  | noBackupSection (cluster : Json)
  | noAttempts
  | beyondCalendar
deriving DecidableEq

def Fault.message? : Fault → Option String
  | malformed e => e.message?
  | creation e => some e.message
  | noBackupSection cluster => some ("cluster " ++ cluster.text ++ " has no backup section")
  | noAttempts => some Polling.noAttempts
  | beyondCalendar => some "date value out of range"

inductive Stop where
  | obstacle (o : Obstacle)
  | fault (f : Fault)
deriving DecidableEq

def Fault.ofBackupError : BackupError → Fault
  | .malformed e => malformed e
  | .creation e => creation e

def Stop.ofJobError : JobError → Stop
  | .noBackupSection cluster => .fault (.noBackupSection cluster)
  | .ownership e => .obstacle (.ownership e)

end ClusterBackup
