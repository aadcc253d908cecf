/-
  GridBench.Run.Loop

  One run of a test loop as a system of tasks: the main task, one worker for
  each partition, and the gatherer's task.  Each label names a task whose next
  step it is, so that every order of steps is a run.  The main task writes the
  first status before any worker starts, launches the workers, waits until
  each has ended, and only then asks the gatherer to make the last write.
-/
import GridBench.Run.Partition
import GridBench.Run.Alone

namespace GridBench

/-- How far the main task of a run has come. -/
inductive LoopPhase where
  /-- It has not begun. -/
  | bound
  | launching
  /-- All workers are launched, and it waits for them. -/
  | joining
  /-- It waits for the gatherer. -/
  | stopping
  | finished
deriving DecidableEq, Repr

/-- One run of a test loop. -/
structure LoopRun where
  config : LoopConfig
  gatherer : Gatherer := {}
  phase : LoopPhase := .bound
  workers : Array Worker := #[]

/-- The task that makes a step. -/
inductive LoopTask where
  | main
  | worker (partition : Nat)
  | gather
deriving DecidableEq, Repr

namespace LoopRun

/-- What is published before anything else happens. -/
def initialStatus (plan : RunPlan) : List StatusUpdate :=
  [.update numMapsKey (.ofNat plan.numMaps.toNat), .update numRunsKey (.ofNat plan.numRuns.toNat),
    .update totalRunsKey (.ofNat plan.totalRuns.toNat), .update runnerFinishedKey (.bool false)]

/-- The warning that the boundary loop cannot be had. -/
def boundaryWarning (config : LoopConfig) : List Record :=
  match config.plan.loopType with
  | .batch => []
  | .boundary =>
    [⟨.warn, .testLoop, config.source
      ++ ": boundary test loop is not available yet, running batch operations instead"⟩]

/-- Begins a run: writes the first status and starts gathering. -/
def begin (l : LoopRun) : Except Fault LoopRun := do
  let g ← (initialStatus l.config.plan).foldlM Gatherer.insertNow l.gatherer
  let g ← g.listen
  pure { l with gatherer := g, phase := .launching }

/-- Begins the run of a test loop, which must have been bound to one. -/
def beginBound (l : Option LoopRun) : Except Fault LoopRun :=
  match l with
  | none => .error (.invalidState "test loop run before init")
  | some l => l.begin

/-- Whether every worker launched has ended. -/
def allEnded (l : LoopRun) : Bool := l.workers.all Worker.hasEnded

/-- How a task that ended with a panic is reported. -/
def panicText (task : Nat) (message : String) : String :=
  "task " ++ toString task ++ " panicked with message " ++ Text.quote message

/-- What is logged about the workers that crashed, in the order of their partitions. -/
def crashRecords (l : LoopRun) : List Record :=
  l.workers.toList.zipIdx.filterMap fun (w, p) => w.crash?.map fun message =>
    ⟨.error, .testLoop, l.config.source ++ ": worker of partition " ++ toString p ++ " panicked: "
      ++ panicText p message⟩

/-- The worker of a partition at its start. -/
def newWorker (config : LoopConfig) (partition : Nat) : Worker :=
  .running (Partition.work ⟨config, partition⟩)

variable {σ : Type}

/-- A step of the main task. -/
def mainStep? (w : World σ) (l : LoopRun) : Option (World σ × LoopRun) :=
  match l.phase with
  | .bound =>
    match l.begin with
    | .ok l => some (w.log (boundaryWarning l.config), l)
    | .error _ => none
  | .launching =>
    if l.workers.size < l.config.plan.numMaps.toNat then
      some (w, { l with workers := l.workers.push (newWorker l.config l.workers.size) })
    else some (w, { l with phase := .joining })
  | .joining =>
    if l.allEnded then
      let (g, late) := l.gatherer.post .stop
      some (w.log (l.crashRecords ++ late), { l with gatherer := g, phase := .stopping })
    else none
  | .stopping =>
    if l.gatherer.phase = .finished then some (w, { l with phase := .finished }) else none
  | .finished => none

/-- A step of a partition's worker. -/
def workerStep? (g : Grid σ) (w : World σ) (l : LoopRun) (partition : Nat) :
    Option (World σ × LoopRun) :=
  (l.workers[partition]?).bind fun t => (t.step? g w).map fun (w, t, sent) =>
    (w, { l with
      workers := l.workers.setIfInBounds partition t
      gatherer := sent.foldl (fun g u => (g.send u).1) l.gatherer })

/-- A step of the gatherer's task. -/
def gatherStep? (w : World σ) (l : LoopRun) : Option (World σ × LoopRun) :=
  l.gatherer.step?.map fun (g, logs) => (w.log logs, { l with gatherer := g })

/-- A step of one task; nothing if the task cannot move. -/
def step? (g : Grid σ) (w : World σ) (l : LoopRun) : LoopTask → Option (World σ × LoopRun)
  | .main => l.mainStep? w
  | .worker partition => l.workerStep? g w partition
  | .gather => l.gatherStep? w

/-! ## One partition after the other -/

/-- Carries out the workers of the given partitions, one after the other. -/
def workersAlone (g : Grid σ) (config : LoopConfig) :
    List Nat → World σ → Gatherer → Array Worker → World σ × Gatherer × Array Worker
  | [], w, t, ended => (w, t, ended)
  | p :: ps, w, t, ended =>
    let (crash, w, t) := (Partition.work ⟨config, p⟩).alone g w t
    workersAlone g config ps w t (ended.push (.running (.done crash)))

/-- Carries out a whole run, one partition after the other. -/
def alone (g : Grid σ) (w : World σ) (l : LoopRun) : Except Fault (World σ × LoopRun) := do
  let l ← l.begin
  let w := w.log (boundaryWarning l.config)
  let (w, t, workers) := workersAlone g l.config l.config.plan.partitions w l.gatherer l.workers
  let l := { l with workers := workers }
  let (t, w) := t.gather (w.log l.crashRecords) .stop
  pure (w, { l with gatherer := t, phase := .finished })

end LoopRun

end GridBench
