import ClusterBackup.Settings.Basic
import ClusterBackup.Text.DecimalDigit
import ClusterBackup.Text.Quoted
/-!
# Options of the command line

An option is given by its name or by a beginning that no other option shares. Its value follows as
the next argument or after an equals sign. After two hyphens nothing is an option any more, and
two hyphens after an equals sign leave the option without anything in it.
-/

namespace ClusterBackup

structure Options where
  kubeconfig : Option Setting := none
  context : Option Setting := none
  inCluster : Bool := false
  ns : Option Setting := none
  logLevel : Option Setting := none
deriving DecidableEq

namespace CommandLine

inductive Flag where
  | help
  | kubeconfig
  | context
  | inCluster
  | ns
  | logLevel
deriving DecidableEq

namespace Flag

def names : Flag → List String
  | help => ["-h", "--help"]
  | kubeconfig => ["--kubeconfig"]
  | context => ["--context"]
  | inCluster => ["--in-cluster"]
  | ns => ["--namespace"]
  | logLevel => ["--log-level"]

def all : List Flag := [help, kubeconfig, context, inCluster, ns, logLevel]

def named : List (String × Flag) := all.flatMap fun f => f.names.map fun name => (name, f)

def label (f : Flag) : String := "/".intercalate f.names

def takesValue : Flag → Bool
  | help => false
  | inCluster => false
  | _ => true

end Flag

inductive UsageError where
  | ambiguous (text : String) (names : List String)
  | valueExpected (f : Flag)
  | valueIgnored (f : Flag) (value : String)
  | unrecognized (texts : List String)
deriving DecidableEq

def UsageError.message : UsageError → String
  | ambiguous text names =>
    "ambiguous option: " ++ text ++ " could match " ++ ", ".intercalate names
  | valueExpected f => "argument " ++ f.label ++ ": expected one argument"
  | valueIgnored f value =>
    "argument " ++ f.label ++ ": ignored explicit argument " ++ Text.quoted value
  | unrecognized texts => "unrecognized arguments: " ++ " ".intercalate texts

/-- An argument by what it looks like: a plain text, two hyphens, an option with a value attached
to it or without, the letter for help with other letters after it, or a text that looks like an
option but is none. -/
inductive Argument where
  | plain (text : String)
  | separator
  | option (f : Flag) (attached : Option String)
  | help (letters : List Char)
  | unknown (text : String)
deriving DecidableEq

/-- Whether a text is a negative number in plain digits, a line feed at its end left aside. -/
def isNegativeNumber (cs : List Char) : Bool :=
  match cs with
  | '-' :: cs =>
    let cs := if cs.getLast? = some '\n' then cs.dropLast else cs
    let isDigit (c : Char) : Bool := (Text.digitValue? c).isSome
    match cs.dropWhile isDigit with
    | [] => !cs.isEmpty
    | '.' :: places => !places.isEmpty && places.all isDigit
    | _ => false
  | _ => false

def splitValue (cs : List Char) : List Char × Option String :=
  match cs.dropWhile (· != '=') with
  | _ :: value => (cs.takeWhile (· != '='), some (String.ofList value))
  | [] => (cs, none)

def flagNamed? (cs : List Char) : Option Flag := Flag.named.lookup (String.ofList cs)

def Argument.withValue (name : List Char) (f : Flag) (value : String) : Argument :=
  if name = ['-', 'h'] then help value.toList else option f (some value)

/-- What a text looks like that starts with a hyphen and is not the beginning of an option. -/
def classifyOther (text : String) (cs : List Char) : Argument :=
  if isNegativeNumber cs || cs.contains ' ' then .plain text else .unknown text

/-- What an argument looks like that starts with a hyphen and is not the name of an option. -/
def classifyHyphened (text : String) (cs : List Char) : Except UsageError Argument :=
  let (name, attached) := splitValue cs
  match attached, flagNamed? name with
  | some value, some f => .ok (.withValue name f value)
  | _, _ =>
    match cs with
    | '-' :: 'h' :: letters => .ok (.help letters)
    | '-' :: '-' :: _ =>
      match Flag.named.filter fun n => name.isPrefixOf n.1.toList with
      | [(_, f)] => .ok (.option f attached)
      | [] => .ok (classifyOther text cs)
      | matching => .error (.ambiguous text (matching.map Prod.fst))
    | _ => .ok (classifyOther text cs)

def classify (text : String) : Except UsageError Argument :=
  let cs := text.toList
  match flagNamed? cs with
  | some f => .ok (.option f none)
  | none =>
    match cs with
    | '-' :: _ :: _ => classifyHyphened text cs
    | _ => .ok (.plain text)

/-- What the arguments look like; after two hyphens all are plain. -/
def classifyAll : List String → Except UsageError (List Argument)
  | [] => .ok []
  | text :: texts =>
    if text = "--" then .ok (.separator :: texts.map .plain)
    else do
      let argument ← classify text
      return argument :: (← classifyAll texts)

inductive Request where
  | help
  | start (options : Options)
deriving DecidableEq

def withValue (o : Options) (f : Flag) (value : Setting) : Options :=
  match f with
  | .kubeconfig => { o with kubeconfig := some value }
  | .context => { o with context := some value }
  | .ns => { o with ns := some value }
  | .logLevel => { o with logLevel := some value }
  | .help => o
  | .inCluster => { o with inCluster := true }

def settingOf (attached : String) : Setting := if attached = "--" then .nothing else .text attached

/-- What the letters after the one for help come to: the letter may be repeated, and with anything
else it is an option that takes no value. -/
def readHelp : List Char → Except UsageError Request
  | [] => .ok .help
  | 'h' :: letters => readHelp letters
  | letters => .error (.valueIgnored .help (String.ofList letters))

/-- Goes through the arguments, with the options set and the texts left over so far. -/
def collect (o : Options) (left : List String) : List Argument → Except UsageError Request
  | [] => if left.isEmpty then .ok (.start o) else .error (.unrecognized left)
  | .plain text :: rest => collect o (left ++ [text]) rest
  | .separator :: rest => collect o (left ++ ["--"]) rest
  | .unknown text :: rest => collect o (left ++ [text]) rest
  | .help letters :: _ =>
    if letters.isEmpty then .error (.valueIgnored .help "") else readHelp letters
  | .option f (some value) :: rest =>
    if f.takesValue then collect (withValue o f (settingOf value)) left rest
    else .error (.valueIgnored f value)
  | .option f none :: rest =>
    if f = .help then .ok .help
    else if f.takesValue then
      match rest with
      | .plain value :: rest => collect (withValue o f (.text value)) left rest
      | _ => .error (.valueExpected f)
    else collect (withValue o f .nothing) left rest

def read (arguments : List String) : Except UsageError Request := do
  collect {} [] (← classifyAll arguments)

end CommandLine

end ClusterBackup
