/-
  GridBench.Runner.Load

  The load runner: it plans its run from the settings, signals readiness,
  binds a test loop to its elements, and waits for the run to finish.
-/
import GridBench.Runner.Milestone
import GridBench.Run.Process

namespace GridBench

/-- Everything a runner is told about the process around it. -/
structure RunnerContext where
  clusterName : String
  members : List String
  client : ClientIdentity
  settings : Settings
  /-- The identifier of the next run. -/
  runId : RunId

namespace RunnerContext

/-- The context for settings as they are. -/
def ofSettings (s : Settings) (client : ClientIdentity) (runId : RunId) : RunnerContext :=
  ⟨s.client.clusterName, s.client.members, client, s, runId⟩

end RunnerContext

/-- How far the load runner has come. -/
inductive LoadPhase where
  | idle
  /-- It waits for a run. -/
  | running (run : Nat)
  | ended
deriving DecidableEq, Repr

/-- The load runner: its milestones so far and how far it has come. -/
structure LoadRunner where
  milestones : List Milestone := []
  phase : LoadPhase := .idle
deriving DecidableEq, Repr, Inhabited

namespace LoadRunner

/-- The name under which the load runner is registered. -/
def name : String := "maps-loadrunner"

/-- The source of the load runner's runs. -/
def source : String := "loadrunner"

/-- A log record of the load runner. -/
def record (severity : Severity) (message : String) : Record :=
  ⟨severity, .loadRunner, source ++ ": " ++ message⟩

/-- Passes one more milestone. -/
def reach (r : LoadRunner) (m : Milestone) : LoadRunner :=
  { r with milestones := r.milestones ++ [m] }

/-- Comes to the end. -/
def finish (r : LoadRunner) : LoadRunner := { r with phase := .ended }

/-- The run of the load runner. -/
def loopConfig (ctx : RunnerContext) (plan : RunPlan) (es : List LoadElement) : LoopConfig where
  runId := ctx.runId
  source := source
  plan := plan
  check := LoadElement.shape
  elements := es.map LoadElement.element
  client := ctx.client
  getMapTimeoutMs := ctx.settings.client.getMapTimeoutMs.toNat

variable {σ : Type}

/-- Binds the test loop, between the two signals of readiness; the number of the run. -/
def assign (ctx : RunnerContext) (plan : LoadPlan) (p : Process σ) : Process σ × Nat :=
  let p := p.signal .notReady
  let (es, draws) :=
    LoadElement.populate plan.numEntries.toNat plan.payloadSize.toNat p.world.draws
  let p := { p with world := { p.world with draws := draws } }
  let (p, run) := p.bind (loopConfig ctx plan.run es)
  (p.signal .ready, run)

/-- Everything up to the start of the run.  The phase tells whether there is a run to wait for. -/
def prepare (ctx : RunnerContext) (p : Process σ) (r : LoadRunner) : Process σ × LoadRunner :=
  let r := r.reach .start
  match ctx.settings.mapTests.load.resolve with
  | .error problem =>
    (p.log [record .error ("unable to populate config, aborting: " ++ problem.fault.message)],
      r.finish)
  | .ok plan =>
    let r := r.reach .populateConfigComplete
    if plan.run.enabled then
      let (p, run) := assign ctx plan p
      let r := ((r.reach .checkEnabledComplete).reach .assignTestLoopComplete).reach
        .raiseReadyComplete
      (p.log [record .info ("starting load test loop against cluster '" ++ ctx.clusterName ++ "' ("
          ++ toString ctx.members.length ++ " member(s))")],
        { r.reach .testLoopStart with phase := .running run })
    else (p.log [record .info "runner not enabled, won't run"], r.finish)

/-- Everything after the run, which may have failed to begin. -/
def conclude (failure : Option Fault) (p : Process σ) (r : LoadRunner) : Process σ × LoadRunner :=
  (p.log ((failure.toList.map fun f => record .error ("test loop failed: " ++ f.message))
      ++ [record .info "finished map load test loop"]),
    (r.reach .testLoopComplete).finish)

/-- A step of the runner itself; nothing if it cannot move. -/
def step? (ctx : RunnerContext) (p : Process σ) (r : LoadRunner) :
    Option (Process σ × LoadRunner) :=
  match r.phase with
  | .idle => some (prepare ctx p r)
  | .running run =>
    match p.runs[run]? with
    | none => none
    | some l => if l.phase = .finished then some (conclude none p r) else none
  | .ended => none

/-- The whole runner, its run carried out one partition after the other. -/
def alone (g : Grid σ) (ctx : RunnerContext) (p : Process σ) (r : LoadRunner) :
    Process σ × LoadRunner :=
  let (p, r) := prepare ctx p r
  match r.phase with
  | .running run =>
    match p.runAlone g run with
    | .ok p => conclude none p r
    | .error f => conclude (some f) p r
  | _ => (p, r)

end LoadRunner

end GridBench
