import ClusterBackup.Numeric.Numeral
import ClusterBackup.Settings.Basic
/-!
# Settings from the environment

Each setting has a variable. A variable that is there counts even if it is empty; one that is not
there leaves the usual setting.
-/

namespace ClusterBackup

/-! ### The names of the variables -/

namespace Settings.VariableName

def ns : String := "PXCB_NAMESPACE"

def requeueAfter : String := "PXCB_REQUEUE_AFTER_SECONDS"

def bindAttempts : String := "PXCB_VOLUME_BIND_ATTEMPTS"

def claimName : String := "PXCB_BACKUP_VOLUME_NAME"

def jobBackoffLimit : String := "PXCB_JOB_BACKOFF_LIMIT"

def watchSeconds : String := "PXCB_WATCH_TIMEOUT_SECONDS"

def logLevel : String := "PXCB_LOG_LEVEL"

def all : List String :=
  [ns, requeueAfter, bindAttempts, claimName, jobBackoffLimit, watchSeconds, logLevel]

end Settings.VariableName

/-! ### Reading -/

namespace Settings

def integerOr (usual : Int) : Option String → Except NumeralError Int
  | some text => Numeral.readInt text
  | none => .ok usual

def realOr (usual : Binary64) : Option String → Except NumeralError Binary64
  | some text => Numeral.readReal text
  | none => .ok usual

def textOr (usual : Setting) : Option String → Setting
  | some text => .text text
  | none => usual

def ofEnvironment (env : String → Option String) : Except NumeralError (Settings Binary64) := do
  let base : Settings Binary64 := usual
  let requeueAfter ← realOr base.requeueAfter (env VariableName.requeueAfter)
  let bindAttempts ← integerOr base.bindAttempts (env VariableName.bindAttempts)
  let jobBackoffLimit ← integerOr base.jobBackoffLimit (env VariableName.jobBackoffLimit)
  let watchSeconds ← integerOr base.watchSeconds (env VariableName.watchSeconds)
  return {
    ns := textOr base.ns (env VariableName.ns)
    requeueAfter, bindAttempts
    claimName := (env VariableName.claimName).getD base.claimName
    jobBackoffLimit, watchSeconds
    logLevel := textOr base.logLevel (env VariableName.logLevel) }

end Settings

end ClusterBackup
