import ClusterBackup.Launch
/-!
# The program

The command line of the controller. No connection to a cluster is built in, so the program ends
where credentials would be loaded.
-/

namespace ClusterBackup

def noConnection : LoadFailure := ⟨"Unavailable", "no connection to a cluster is built in"⟩

def readVariables : IO (List (String × String)) := do
  let values ← Settings.VariableName.all.mapM fun name => do
    return (← IO.getEnv name).map fun value => (name, value)
  return values.filterMap id

/-- The surroundings of the program itself. Only one's own home directory is known. -/
def surroundings (home : Option String) : Surroundings IO where
  homeOf user := if user = "" then home else none
  load _ := return .error noConnection
  setLogLevel _ := return
  complain text := IO.eprintln text
  logError text := IO.eprintln text
  run _ := return

def usage : String :=
  "usage: " ++ " ".intercalate (CommandLine.Flag.all.map fun f =>
    "[" ++ f.label ++ (if f.takesValue then " VALUE]" else "]"))

end ClusterBackup

open ClusterBackup in
def main (arguments : List String) : IO UInt32 := do
  let values ← readVariables
  match Settings.ofEnvironment fun name => values.lookup name with
  | .error e =>
    IO.eprintln e.message
    return 1
  | .ok settings =>
    match CommandLine.read arguments with
    | .error e =>
      IO.eprintln (usage ++ "\nerror: " ++ e.message)
      return usageExitCode.toUInt32
    | .ok .help =>
      IO.println usage
      return 0
    | .ok (.start options) =>
      match ← launch (surroundings (← IO.getEnv "HOME")) settings options with
      | .ok exit => return exit.code.toUInt32
      | .error e =>
        IO.eprintln (e.message?.getD "an option is empty where a text is wanted")
        return 1
