/-
  GridBench.Cli.App

  What an invocation of the program comes to: the settings are loaded, the
  command is carried out on a store in memory, and the outcome is a text, the
  log records let through, and an exit code.
-/
import GridBench.Cli.Arguments
import GridBench.Cli.LogLevel
import GridBench.Cli.Summary
import GridBench.Json.Printer
import GridBench.Runner.Load
import GridBench.Runner.Tester
import GridBench.Settings.Client
import GridBench.Settings.Search
import GridBench.Store.Memory

namespace GridBench

/-- What the program finds around it. -/
structure Surroundings where
  files : ConfigFiles := {}
  /-- The filter for log records. -/
  filter : Option String := none
  /-- The log file. -/
  logFile : String := "gridload.log"
  colours : Bool := false
  draws : Draws := .cyclic []
  /-- An identity that no other client has. -/
  freshClient : RunId
  /-- An identifier that no other run has. -/
  freshRun : RunId

/-- The outcome of an invocation. -/
structure Outcome where
  /-- What is printed, line by line. -/
  printed : List String := []
  /-- Text printed as it is, after the lines. -/
  text : String := ""
  /-- The log records let through. -/
  logged : List Record := []
  /-- The chain of causes why the program failed. -/
  failure : Option (List String) := none

namespace Outcome

/-- All that is printed. -/
def stdout (o : Outcome) : String := String.join (o.printed.map fun l => l ++ "\n") ++ o.text

def exitCode (o : Outcome) : Nat := if o.failure.isSome then 1 else 0

/-- The report of a failure, line by line. -/
def report (o : Outcome) : List String :=
  match o.failure with
  | none => []
  | some [] => ["Error: "]
  | some (what :: causes) =>
    ["Error: " ++ what, "", "Caused by:"]
      ++ causes.zipIdx.map fun (c, i) => "   " ++ toString i ++ ": " ++ c

end Outcome

namespace Record

/-- The record as a line of the log. -/
def logLine (r : Record) : String :=
  r.severity.name ++ String.ofList (List.replicate (5 - r.severity.name.length) ' ') ++ " "
    ++ r.speaker.target ++ "] " ++ r.message

end Record

/-- The name of the program and its version. -/
def versionText : String := "gridload 0.1.0"

namespace App

/-- A log record of the program itself. -/
def info (message : String) : Record := ⟨.info, .program, message⟩

/-- The identity a client works under: the one named on the command line, else the configured
    one, else a fresh one. -/
def identity (fresh : RunId) (named configured : Option String) : ClientIdentity × List Record :=
  match named <|> configured with
  | some v => ClientIdentity.ofConfigured fresh.render v
  | none => (⟨fresh.render⟩, [])

/-- All runners on a store in memory, from the start of the process to its end. -/
def rehearse (ctx : RunnerContext) (draws : Draws) : Process MemoryStore × List Record :=
  let (t, registered) := ({} : Tester).register LoadRunner.name
  let (t, started) := t.settle ctx.clusterName
  let p : Process MemoryStore := { world := { grid := {}, draws := draws } }
  let p := p.log (registered ++ started)
  let (p, _) := LoadRunner.alone MemoryStore.grid ctx p {}
  let t := (t.endStep? 0 none).getD t
  let (_, ended) := t.settle ctx.clusterName
  let p := p.log ended
  (p, p.world.journal.toList)

/-- The summaries of all registered runs. -/
def summaries {σ : Type} (colours : Bool) (p : Process σ) : List String :=
  p.registry.runs.flatMap fun r =>
    match p.statusOf r.kind r.source with
    | none => []
    | some progress => runSummary colours r.kind r.source r.runId.render progress

/-- The line about the store. -/
def storeLine (colours : Bool) (s : MemoryStore) : String :=
  Colour.cyan.paint colours "Store:" ++ " " ++ toString s.calls.total ++ " remote call(s) on "
    ++ toString s.mapNames.length ++ " map(s)"

/-- The command that runs all runners: what is printed, and the log records. -/
def run (around : Surroundings) (clientId : Option String) (settings : Settings) :
    List String × List Record :=
  let (client, warnings) := settings.client.sanitized
  let settings := { settings with client := client }
  let (id, more) := identity around.freshClient clientId settings.client.identity
  let ctx := RunnerContext.ofSettings settings id around.freshRun
  let (p, logs) := rehearse ctx around.draws
  let head := Colour.green.paint around.colours "Running:" ++ " 1 runner(s) on cluster '"
    ++ ctx.clusterName ++ "' as client " ++ id.text
  (head :: summaries around.colours p ++ [storeLine around.colours p.world.grid, p.document.pretty 0],
    warnings ++ more ++ [info ("Using client identity " ++ id.text)] ++ logs)

/-- The command of an invocation: the lines and the text printed, and the log records. -/
def perform (around : Surroundings) (inv : Invocation) (settings : Settings) :
    List String × String × List Record :=
  let verbose :=
    if inv.verbose then [Colour.yellow.paint around.colours "Verbose mode enabled"] else []
  match inv.command with
  | .run clientId =>
    let (lines, logs) := run around clientId settings
    (verbose ++ lines, "", logs)
  | .showConfig => (verbose, settings.toYaml, [])

/-- The path of the configuration in the log. -/
def configText : Option String → String
  | none => "None"
  | some path => "Some(" ++ Text.quote path ++ ")"

/-- The first log record. -/
def logStart (around : Surroundings) (inv : Invocation) : Record :=
  info (if inv.logStderr then "Logging initialized, writing to stderr"
    else "Logging initialized, writing to: " ++ around.logFile)

/-- Carries an invocation out.  Until the configuration is known, the log lets everything
    through that the filter does. -/
def outcome (around : Surroundings) (inv : Invocation) : Outcome :=
  let filter := around.filter.elim LogFilter.everything LogFilter.ofString
  let (loaded, early) := around.files.load
  let early := logStart around inv :: early
  match loaded with
  | .error causes =>
    { logged := early.filter filter.allows
      failure := some ("Failed to load configuration" :: causes) }
  | .ok settings =>
    let (level, warnings) := LogLevel.resolve around.filter settings.logLevel
    let (printed, text, logs) := perform around inv settings
    let late := [info ("Starting with config from: " ++ configText inv.config),
      info "Starting application"] ++ logs
    { printed := printed
      text := text
      logged := (early ++ warnings).filter filter.allows
        ++ late.filter fun r => filter.allows r && (level.getD .everything).allows r }

end App

end GridBench
