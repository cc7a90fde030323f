import ClusterBackup.Bucket
/-!
# Records

What is recorded on a backup about its progress. `Record.ofJson` reads the record of a stored
backup and `Record.toJson` writes it.
-/

namespace ClusterBackup

inductive Stage where
  | starting
  | running
  | succeeded
  | failed
deriving DecidableEq, Repr

namespace Stage

def name : Stage → String
  | starting => "Starting"
  | running => "Running"
  | succeeded => "Succeeded"
  | failed => "Failed"

def ofName? : String → Option Stage
  | "Starting" => some starting
  | "Running" => some running
  | "Succeeded" => some succeeded
  | "Failed" => some failed
  | _ => none

/-- Whether a backup never leaves the stage. -/
def isFinal : Stage → Bool
  | succeeded => true
  | failed => true
  | _ => false

@[simp] theorem ofName?_name (s : Stage) : ofName? s.name = some s := by
  cases s <;> rfl

end Stage

/-- The record of a backup. Its state is the name of a stage unless something else was stored;
the time of completion is null where none is recorded. -/
structure Record where
  state : Json
  destination : Json
  profile : Json
  bucket : Option Bucket
  completedAt : Json
deriving DecidableEq

namespace Record

/-- Reads a record. There is none where nothing, or no state, is stored. -/
def ofJson (raw : Json) : Except Malformed (Option Record) := do
  if !raw.given then return none
  let state ← raw.member "state"
  if !state.given then return none
  let bucket ← raw.member "objectStorage"
  return some {
    state
    destination := (← raw.member "destination").orBlank
    profile := (← raw.member "storageProfile").orBlank
    bucket := ← if bucket.given then some <$> Bucket.ofJson bucket else pure none
    completedAt := ← raw.member "completedAt" }

def toJson (r : Record) : Json :=
  .obj ([("state", r.state), ("destination", r.destination), ("storageProfile", r.profile)] ++
    (match r.bucket with
      | some bucket => [("objectStorage", bucket.toJson)]
      | none => []) ++
    if r.completedAt.isNull then [] else [("completedAt", r.completedAt)])

def stage? (r : Record) : Option Stage :=
  match r.state with
  | .str name => Stage.ofName? name
  | _ => none

def same (r s : Record) : Bool :=
  r.state.same s.state && r.destination.same s.destination && r.profile.same s.profile &&
    (match r.bucket, s.bucket with
      | none, none => true
      | some a, some b => a.same b
      | _, _ => false) &&
    r.completedAt.same s.completedAt

end Record

end ClusterBackup
