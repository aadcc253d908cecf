/-
  GridBench.Main

  The program: it reads the arguments, the environment and the configuration
  files, and writes what the invocation comes to.
-/
import GridBench.Cli.App

namespace GridBench

/-- What there is under a path. -/
def readFile (path : String) : IO FileState := do
  try
    return .bytes (← IO.FS.readBinFile path)
  catch
    | .noFileOrDirectory .. => return .missing
    | e => return .unreadable (toString e)

/-- A variable of the environment that names a directory, or a place below the home directory. -/
def directory (variable_ below : String) : IO (Option String) := do
  match ← IO.getEnv variable_ with
  | some d => if d.startsWith "/" then return some d else homeBelow
  | none => homeBelow
where
  /-- The place below the home directory. -/
  homeBelow : IO (Option String) := do
    return (← IO.getEnv "HOME").map fun h => h ++ "/" ++ below

/-- Whether text is printed in colours. -/
def wantsColours : IO Bool := do
  match ← IO.getEnv "CLICOLOR_FORCE", ← IO.getEnv "NO_COLOR" with
  | some force, _ => return force != "0"
  | none, some _ => return false
  | none, none => (← IO.getStdout).isTty

/-- Writes the lines of the log. -/
def writeLog (inv : Invocation) (dir file : String) (lines : List String) : IO Unit := do
  let text := String.join (lines.map fun l => "[" ++ l ++ "\n")
  if inv.logStderr then (← IO.getStderr).putStr text
  else
    IO.FS.createDirAll dir
    let h ← IO.FS.Handle.mk file .append
    h.putStr text
    h.flush

/-- Carries out an invocation. -/
def execute (inv : Invocation) : IO UInt32 := do
  let explicit ← match inv.config with
    | some path => pure (some (path, ← readFile path))
    | none => pure none
  let userPath := (← directory "XDG_CONFIG_HOME" ".config").map fun d => d ++ "/gridload/gridload.yml"
  let user ← match userPath with
    | some path => pure (some (path, ← readFile path))
    | none => pure none
  let dir := ((← directory "XDG_DATA_HOME" ".local/share").getD ".") ++ "/gridload/logs"
  let seed ← IO.rand 0 (.pow 2 62)
  let around : Surroundings := {
    files := ⟨explicit, ← readFile ConfigFiles.projectName, user⟩
    filter := ← IO.getEnv "RUST_LOG"
    logFile := dir ++ "/gridload.log"
    colours := ← wantsColours
    draws := .seeded seed
    freshClient := .ofRandom ((← IO.rand 0 (.pow 2 62)) * .pow 2 62 + (← IO.rand 0 (.pow 2 62)))
    freshRun := .ofRandom ((← IO.rand 0 (.pow 2 62)) * .pow 2 62 + (← IO.rand 0 (.pow 2 62))) }
  let outcome := App.outcome around inv
  (← IO.getStdout).putStr outcome.stdout
  writeLog inv dir around.logFile (outcome.logged.map Record.logLine)
  (← IO.getStderr).putStr (String.join (outcome.report.map fun l => l ++ "\n"))
  return outcome.exitCode.toUInt32

/-- How the program is called. -/
def usage : String := "Usage: gridload [OPTIONS] <COMMAND>\n\nCommands:\n"
  ++ "  run          Run all registered map runners\n"
  ++ "  show-config  Print the effective configuration as YAML\n\nOptions:\n"
  ++ "  -c, --config <CONFIG>  Optional config file path\n"
  ++ "  -v, --verbose          Verbose output\n"
  ++ "      --log-stderr       Log to stderr instead of the log file\n"
  ++ "  -h, --help             Print help\n"
  ++ "  -V, --version          Print version\n"

/-- Reports arguments that are not carried out. -/
def explain (e : UsageError) : IO UInt32 := do
  match e with
  | .helpWanted => (← IO.getStdout).putStr usage
  | .versionWanted => (← IO.getStdout).putStr (versionText ++ "\n")
  | .noArguments => (← IO.getStderr).putStr usage
  | e => (← IO.getStderr).putStr ("error: " ++ e.message ++ "\n\n" ++ usage)
  return e.exitCode.toUInt32

end GridBench

/-- The entry point. -/
def main (args : List String) : IO UInt32 :=
  match GridBench.Invocation.ofArguments args with
  | .ok inv => GridBench.execute inv
  | .error e => GridBench.explain e
