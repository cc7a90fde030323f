import ClusterBackup.Api.Call
import ClusterBackup.Destination
/-!
# Progress

What the status of a job says about its backup, the record that follows from it, and when a
record is replaced. A final record is closed: it is only replaced by one that adds the time of
completion to a success.
-/

namespace ClusterBackup

/-- How a job stands: its counters, and when it was completed, null where that is not known. -/
structure Progress where
  active : Json
  succeeded : Json
  failed : Json
  completedAt : Json
deriving DecidableEq

namespace Progress

def none : Progress := ⟨.int 0, .int 0, .int 0, .null⟩

/-- When a job was completed, as it is recorded: in UTC, if the date stays within the calendar. -/
def completionText? : Api.Completion → Option Json
  | .unsaid => some .null
  | .time t => t.utcText?.map Json.str
  | .text s => some (.str s)

/-- The progress of a job by its status, if there is one. Counters that are not set are zero. -/
def ofStatus? : Option Api.JobStatus → Option Progress
  | .none => some none
  | .some status => (completionText? status.completion).map fun completedAt => {
      active := status.active.orElse (.int 0)
      succeeded := status.succeeded.orElse (.int 0)
      failed := status.failed.orElse (.int 0)
      completedAt }

/-- The stage that a backup is in: a single active pod is running, a single success or failure
ends it. -/
def stage (p : Progress) : Stage :=
  if p.active.equals (.int 1) then .running
  else if p.succeeded.equals (.int 1) then .succeeded
  else if p.failed.equals (.int 1) then .failed
  else .starting

end Progress

namespace Record

/-- The record of a backup by the progress of its job. Only a success has a time of
completion. -/
def ofProgress (p : Progress) (d : Destination) (profile : Json) : Record where
  state := .str p.stage.name
  destination := .str d.address
  profile
  bucket := d.bucket
  completedAt := if p.stage = .succeeded then p.completedAt else .null

/-- Whether the state of a record is final. A container is no state. -/
def isFinal (r : Record) : Except Malformed Bool :=
  if r.state.isAtom then .ok ((r.stage?.map Stage.isFinal).getD false) else .error .unsuited

/-- Whether a candidate adds to a success the time of completion that it lacks. -/
def completes (candidate stored : Record) : Bool :=
  stored.stage? = some .succeeded && stored.completedAt.isNull &&
    candidate.stage? = some .succeeded && !candidate.completedAt.isNull

def isClosedTo (stored : Option Record) (candidate : Record) : Except Malformed Bool :=
  match stored with
  | some r => r.isFinal.map fun final => final && !candidate.completes r
  | none => .ok false

def differsFrom (candidate : Record) (stored : Option Record) : Bool :=
  match stored with
  | some r => !r.same candidate
  | none => true

def isChange (stored : Option Record) : Option Record → Bool
  | some candidate => candidate.differsFrom stored
  | none => stored.isSome

end Record

end ClusterBackup
