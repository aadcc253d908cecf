/-
  GridBench.Run.Process

  A process: the world its workers share, the registry of runs, readiness, and
  the runs bound so far.  A registration refers to its run by number, and so
  always shows the table as it is now.
-/
import GridBench.Run.Loop
import GridBench.Status.Registry
import GridBench.Status.Readiness

namespace GridBench

/-- A process and all its runs. -/
structure Process (σ : Type) where
  world : World σ
  registry : Registry Nat := {}
  readiness : Readiness := {}
  runs : Array LoopRun := #[]

/-- The task of a process that makes a step. -/
structure ProcessTask where
  run : Nat
  task : LoopTask
deriving DecidableEq, Repr

namespace Process

variable {σ : Type}

/-- Writes log records. -/
def log (p : Process σ) (rs : List Record) : Process σ := { p with world := p.world.log rs }

/-- The progress of a run. -/
def progressOf (p : Process σ) (run : Nat) : Option Members :=
  (p.runs[run]?).map fun l => l.gatherer.table.snapshot

/-- Binds a test loop to a run, which gets the gatherer: from now on its progress can be looked up
    under its source.  The number is that of the run. -/
def bind (p : Process σ) (config : LoopConfig) (gatherer : Gatherer := {}) : Process σ × Nat :=
  let number := p.runs.size
  let (registry, logs) := p.registry.register ⟨.maps, config.source, config.runId, number⟩
  let run : LoopRun := { config := config, gatherer := gatherer }
  ({ p with registry := registry, runs := p.runs.push run }.log logs, number)

/-- Signals readiness, or the lack of it. -/
def signal (p : Process σ) (s : ReadinessSignal) : Process σ :=
  let (readiness, logs) := p.readiness.signal s
  { p with readiness := readiness }.log logs

/-- The progress of the run registered for a kind and source. -/
def statusOf (p : Process σ) (kind : LoopKind) (source : String) : Option Members :=
  p.registry.statusOf p.progressOf kind source

/-- The progress of all registered runs. -/
def document (p : Process σ) : Json := p.registry.assemble p.progressOf

/-- A step of one task of one run. -/
def step? (g : Grid σ) (p : Process σ) (t : ProcessTask) : Option (Process σ) :=
  (p.runs[t.run]?).bind fun l => (l.step? g p.world t.task).map fun (w, l) =>
    { p with world := w, runs := p.runs.setIfInBounds t.run l }

/-- Carries out a whole run, one partition after the other, unless it cannot begin. -/
def runAlone (g : Grid σ) (p : Process σ) (run : Nat) : Except Fault (Process σ) :=
  match p.runs[run]? with
  | none => .error (.invalidState "test loop run before init")
  | some l => (l.alone g p.world).map fun (w, l) =>
    { p with world := w, runs := p.runs.setIfInBounds run l }

end Process

end GridBench
