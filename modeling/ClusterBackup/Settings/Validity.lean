import ClusterBackup.Clock.Seconds
import ClusterBackup.Settings.Environment
import ClusterBackup.Text.Blank
import ClusterBackup.Text.Capital
/-!
# Valid settings

What the settings of a controller have to satisfy before it starts.
-/

namespace ClusterBackup

inductive SettingsError where
  | requeueNotPositive
  | attemptsNotPositive
  | noClaimName
  | negativeBackoffLimit
  | watchNotPositive
  | unknownLevel (level : String)
  /-- There is nothing in the option for the level. -/
  | noLevel
deriving DecidableEq

def SettingsError.message? : SettingsError → Option String
  | requeueNotPositive => some (Settings.VariableName.requeueAfter ++ " must be positive")
  | attemptsNotPositive => some (Settings.VariableName.bindAttempts ++ " must be positive")
  | noClaimName => some (Settings.VariableName.claimName ++ " must not be empty")
  | negativeBackoffLimit => some (Settings.VariableName.jobBackoffLimit ++ " must be >= 0")
  | watchNotPositive => some (Settings.VariableName.watchSeconds ++ " must be positive")
  | unknownLevel level =>
    some (Settings.VariableName.logLevel ++ " has unknown level: " ++ level)
  | noLevel => none

namespace Settings

def levels : List String :=
  ["CRITICAL", "FATAL", "ERROR", "WARN", "WARNING", "INFO", "DEBUG", "NOTSET"]

def inCapitals (level : String) : String := String.ofList (Text.capitals level.toList)

def capitalLevel {τ : Type} (s : Settings τ) : String :=
  match s.logLevel with
  | .text level => inCapitals level
  | .nothing => ""

def levelError? {τ : Type} (s : Settings τ) : Option SettingsError :=
  match s.logLevel with
  | .text level => if inCapitals level ∈ levels then none else some (.unknownLevel level)
  | .nothing => some .noLevel

/-- What is wrong with the settings, the first thing found. -/
def error? {τ : Type} [Seconds τ] (s : Settings τ) : Option SettingsError :=
  if Seconds.le s.requeueAfter Seconds.zero then some .requeueNotPositive
  else if s.bindAttempts ≤ 0 then some .attemptsNotPositive
  else if (Text.trim s.claimName.toList).isEmpty then some .noClaimName
  else if s.jobBackoffLimit < 0 then some .negativeBackoffLimit
  else if s.watchSeconds ≤ 0 then some .watchNotPositive
  else s.levelError?

end Settings

end ClusterBackup
