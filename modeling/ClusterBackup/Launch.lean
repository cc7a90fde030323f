import ClusterBackup.Access.Basic
import ClusterBackup.CommandLine.Options
import ClusterBackup.Settings.Validity
/-!
# Launching the controller

What happens between the command line and the running controller. All that reaches outside is
done through the surroundings, so that a launch can be followed without them.
-/

namespace ClusterBackup

structure Surroundings (m : Type → Type) where
  homeOf : String → Option String
  load : CredentialSource → m (Except LoadFailure Unit)
  setLogLevel : String → m Unit
  complain : String → m Unit
  logError : String → m Unit
  run : Settings Binary64 → m Unit

inductive Exit where
  | finished
  | invalidSettings
  | noAccess
deriving DecidableEq

def Exit.code : Exit → Nat
  | finished => 0
  | invalidSettings => 2
  | noAccess => 3

def usageExitCode : Nat := 2

namespace Options

def applyTo {τ : Type} (o : Options) (s : Settings τ) : Settings τ :=
  { s with ns := o.ns.getD s.ns, logLevel := o.logLevel.getD s.logLevel }

end Options

/-- What leaves a launch without an end of its own. -/
inductive LaunchError where
  /-- The home directory that a path starts from is not known. -/
  | noHome
  /-- There is nothing in an option where a text is wanted. -/
  | noText
deriving DecidableEq

def LaunchError.message? : LaunchError → Option String
  | noHome => AccessError.noHome.message?
  | noText => none

def launch {m : Type → Type} [Monad m] (s : Surroundings m) (settings : Settings Binary64)
    (options : Options) : m (Except LaunchError Exit) := do
  let settings := options.applyTo settings
  match settings.error? with
  | some e =>
    match e.message? with
    | some text =>
      s.complain ("invalid configuration: " ++ text)
      return .ok .invalidSettings
    | none => return .error .noText
  | none =>
    s.setLogLevel settings.capitalLevel
    match ← obtainAccess s.load s.homeOf options.kubeconfig options.context options.inCluster with
    | .error .noHome => return .error .noHome
    | .error .noPath => return .error .noText
    | .error (.refused source failure) =>
      s.logError (source.refusal failure)
      return .ok .noAccess
    | .ok _ =>
      s.run settings
      return .ok .finished

end ClusterBackup
