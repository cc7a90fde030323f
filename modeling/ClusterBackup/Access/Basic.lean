import ClusterBackup.Access.Path
import ClusterBackup.Settings.Basic
import ClusterBackup.Text.Blank
/-!
# Access to a cluster

Where the credentials come from, and what is said when they cannot be loaded.
-/

namespace ClusterBackup

/-- Where credentials are loaded from: the pod that the controller runs in, or a configuration
file, at its usual place if none is named, and one of its contexts. -/
inductive CredentialSource where
  | pod
  | file (path : Option String) (context : Option Setting)
deriving DecidableEq

/-- Why credentials could not be loaded: the text of the reason, which may be blank, and its
kind. -/
structure LoadFailure where
  kind : String
  text : String
deriving DecidableEq

inductive AccessError where
  /-- The home directory that a path starts from is not known. -/
  | noHome
  /-- There is nothing in the option for the path. -/
  | noPath
  | refused (source : CredentialSource) (failure : LoadFailure)
deriving DecidableEq

namespace LoadFailure

/-- The reason as messages give it: the text, or the kind if that is blank. -/
def reason (f : LoadFailure) : String :=
  match Text.trim f.text.toList with
  | [] => f.kind
  | cs => String.ofList cs

end LoadFailure

def contextNote : Option Setting → String
  | some (.text name) => if name = "" then "" else " with context '" ++ name ++ "'"
  | _ => ""

def CredentialSource.refusal (source : CredentialSource) (f : LoadFailure) : String :=
  match source with
  | pod =>
    "Kubernetes authentication setup failed while loading in-cluster service account " ++
      "credentials: " ++ f.reason ++ ". Ensure the pod has a mounted service account token and " ++
      "Kubernetes service host environment variables."
  | file path context =>
    "Kubernetes authentication setup failed while loading kubeconfig from '" ++
      path.getD "default kubeconfig search path" ++ "'" ++ contextNote context ++ ": " ++
      f.reason ++ ". Verify the kubeconfig path and context are valid."

def AccessError.message? : AccessError → Option String
  | noHome => some "Could not determine home directory."
  | noPath => none
  | refused source f => some (source.refusal f)

namespace CredentialSource

/-- A path as it is used: without blanks at its ends and with its home directory put in. A blank
path names nothing. -/
def pathOf (homeOf : String → Option String) (given : String) :
    Except AccessError (Option String) :=
  match Text.trim given.toList with
  | [] => .ok none
  | cs =>
    match (Path.ofText (String.ofList cs)).expand? homeOf with
    | some path => .ok (some path.text)
    | none => .error .noHome

/-- Where to load credentials from. The path is looked at even where it is not used. -/
def choose (homeOf : String → Option String) (path context : Option Setting) (inPod : Bool) :
    Except AccessError CredentialSource := do
  let path ← match path with
    | some (.text given) => pathOf homeOf given
    | some .nothing => .error .noPath
    | none => .ok none
  return if inPod then pod else file path context

end CredentialSource

def obtainAccess {m : Type → Type} [Monad m]
    (load : CredentialSource → m (Except LoadFailure Unit)) (homeOf : String → Option String)
    (path context : Option Setting) (inPod : Bool) : m (Except AccessError CredentialSource) :=
  match CredentialSource.choose homeOf path context inPod with
  | .error e => pure (.error e)
  | .ok source => do
    match ← load source with
    | .ok () => return .ok source
    | .error f => return .error (.refused source f)

end ClusterBackup
