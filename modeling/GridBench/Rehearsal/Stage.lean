/-
  GridBench.Rehearsal.Stage

  A process on a scripted grid, with a clock that jumps.  Tasks that can move
  stand in a queue; the first of them moves until it cannot, and then waits for
  its timer or for a cancellation.  When the queue is empty the clock jumps to
  the next timer.  Timers of one moment go off in the order in which they were
  set.
-/
import GridBench.Rehearsal.Script
import GridBench.Runner.Load
import GridBench.Runner.Tester

namespace GridBench

/-- What a runner on the stage does. -/
inductive Part where
  | load
  /-- It pauses, notes what it was told about the cluster, and may then panic. -/
  | note (name : String) (pauseMs : Nat) (panics : Bool)
deriving DecidableEq, Repr, Inhabited

namespace Part

/-- The name under which the runner is registered. -/
def name : Part → String
  | .load => LoadRunner.name
  | .note name .. => name

/-- The message of the runner's panic. -/
def panic? : Part → Option String
  | .note name _ true => some ("runner " ++ name ++ " blew up")
  | _ => none

end Part

/-- A runner on the stage. -/
structure Actor where
  part : Part
  runner : LoadRunner := {}
  /-- Whether its pause is over. -/
  paused : Bool := false
deriving Inhabited

/-- A task on the stage. -/
inductive StageTask where
  /-- The cancellation at a given moment. -/
  | cancellation (moment : Nat)
  | actor (number : Nat)
  | worker (run partition : Nat)
deriving DecidableEq, Repr, Inhabited

/-- A timer: when it goes off, in which order, and for whom. -/
structure Timer where
  moment : Nat
  order : Nat
  task : StageTask
deriving DecidableEq, Repr

namespace Timer

/-- Whether a timer goes off before another one. -/
def before (a b : Timer) : Bool :=
  a.moment < b.moment || (a.moment = b.moment && a.order < b.order)

/-- Puts a timer among others in their order. -/
def insertInto (t : Timer) : List Timer → List Timer
  | [] => [t]
  | u :: us => if t.before u then t :: u :: us else u :: insertInto t us

end Timer

/-- A note a runner left: its name, the cluster's name and its members. -/
structure RunnerNote where
  runner : String
  cluster : String
  members : List String
deriving DecidableEq, Repr

/-- The stage. -/
structure Stage where
  process : Process ScriptedGrid
  tester : Tester := {}
  actors : Array Actor := #[]
  context : Option RunnerContext := none
  /-- The task that moves. -/
  moving : Option StageTask := none
  /-- Tasks that can move, the first of them first. -/
  ready : List StageTask := []
  /-- Tasks that can move after those, the last of them first. -/
  readyLater : List StageTask := []
  timers : List Timer := []
  timersSet : Nat := 0
  /-- The progress shown under a map's run whenever the map was asked for, the latest last. -/
  seen : Array (String × Option Members) := #[]
  notes : List RunnerNote := []

namespace Stage

/-- The stage for a script and draws. -/
def ofScript (grid : ScriptedGrid) (draws : Draws) : Stage :=
  { process := { world := { grid := grid, draws := draws } } }

/-- Lets a task move after all others that can. -/
def wake (s : Stage) (t : StageTask) : Stage := { s with readyLater := t :: s.readyLater }

/-- Sets a timer for a task. -/
def setTimer (s : Stage) (moment : Nat) (t : StageTask) : Stage :=
  { s with
    timers := Timer.insertInto ⟨moment, s.timersSet, t⟩ s.timers
    timersSet := s.timersSet + 1 }

/-- Cancels the run from the start. -/
def cancelled (s : Stage) : Stage :=
  { s with process := { s.process with world := s.process.world.cancel } }

/-- Has the run cancelled at a given moment. -/
def cancelAt (s : Stage) (moment : Nat) : Stage := s.wake (.cancellation moment)

/-- The worker a task stands for. -/
def worker? (s : Stage) : StageTask → Option Worker
  | .worker run partition => (s.process.runs[run]?).bind fun l => l.workers[partition]?
  | _ => none

/-! ## Cancellation -/

/-- Whether a timer's task waits for an answer that a cancellation replaces. -/
def isCancellable (s : Stage) (t : Timer) : Bool := (s.worker? t.task).any Worker.isCancellable

/-- Cancels the run, and wakes everyone whose request is given up, in the order in which they
    began to wait. -/
def cancel (s : Stage) : Stage :=
  let (woken, timers) := s.timers.partition s.isCancellable
  let inOrder := woken.mergeSort fun a b => a.order ≤ b.order
  { inOrder.foldl (fun s t => s.wake t.task) s.cancelled with timers := timers }

/-- Cancels the run if the script asks for it. -/
def obey (s : Stage) : Stage :=
  if s.process.world.grid.tripped && !s.process.world.cancelled then s.cancel else s

/-! ## Runs -/

/-- Carries out the steps of a run's own tasks: everything but its workers. -/
def settleRun : Nat → Process ScriptedGrid → Nat → Process ScriptedGrid
  | 0, p, _ => p
  | fuel + 1, p, run =>
    match p.step? ScriptedGrid.grid ⟨run, .gather⟩ with
    | some p => settleRun fuel p run
    | none =>
      match p.step? ScriptedGrid.grid ⟨run, .main⟩ with
      | some p => settleRun fuel p run
      | none => p

/-- More steps than anything on the stage takes. -/
def patience : Nat := .pow 2 62

/-- Begins a run, and lets its workers move after all others that can. -/
def launch (s : Stage) (run : Nat) : Stage :=
  let s := { s with process := settleRun patience s.process run }
  let count := ((s.process.runs[run]?).map fun l => l.workers.size).getD 0
  (List.range count).foldl (fun s i => s.wake (.worker run i)) s

/-- Whether a run has finished. -/
def hasFinished (s : Stage) (run : Nat) : Bool :=
  (s.process.runs[run]?).any fun l => l.phase = .finished

/-! ## Runners -/

/-- Lets the tester go on. -/
def directTester (s : Stage) (ctx : RunnerContext) : Stage :=
  let (t, logs) := s.tester.settle ctx.clusterName
  { s with tester := t, process := s.process.log logs }

/-- Lets a runner's task end. -/
def endActor (s : Stage) (ctx : RunnerContext) (i : Nat) (panic : Option String) : Stage :=
  match s.tester.endStep? i panic with
  | some t => directTester { s with tester := t } ctx
  | none => s

/-- Replaces a runner's state. -/
def withRunner (s : Stage) (i : Nat) (r : LoadRunner) : Stage :=
  { s with actors := s.actors.modify i fun a => { a with runner := r } }

/-- Lets a load runner move as far as it can. -/
def moveLoader (s : Stage) (ctx : RunnerContext) (i : Nat) (r : LoadRunner) : Stage :=
  match r.step? ctx s.process with
  | none => s
  | some (p, r) =>
    let s := { s with process := p }.withRunner i r
    match r.phase with
    | .running run => s.launch run
    | .ended => s.endActor ctx i none
    | .idle => s

/-- Lets a runner move as far as it can. -/
def moveActor (s : Stage) (i : Nat) : Stage :=
  match s.context, s.actors[i]? with
  | some ctx, some a =>
    match a.part with
    | .load => s.moveLoader ctx i a.runner
    | .note name pauseMs _ =>
      if 0 < pauseMs && !a.paused then
        let s := { s with actors := s.actors.setIfInBounds i { a with paused := true } }
        s.setTimer (s.process.world.clock + pauseMs) (.actor i)
      else
        let note : RunnerNote := ⟨name, ctx.clusterName, ctx.members⟩
        { s with notes := s.notes ++ [note] }.endActor ctx i a.part.panic?
  | _, _ => s

/-- The number of the runner that waits for a run. -/
def actorOf? (s : Stage) (run : Nat) : Option Nat :=
  s.actors.findIdx? fun a => a.runner.phase = .running run

/-- After a worker's move: gathers what it published, finishes the run if it was the last one, and
    tells the runner that waits for it. -/
def afterWorker (s : Stage) (run : Nat) : Stage :=
  let s := { s with process := settleRun patience s.process run }
  if s.hasFinished run then
    match s.actorOf? run with
    | some i => s.wake (.actor i)
    | none => s
  else s

/-! ## Moves -/

/-- The map a worker is about to ask for. -/
def asksFor? (s : Stage) (w : Worker) : Option String :=
  match w with
  | .running (.op (.ask (.acquire map) _) _) => if s.process.world.cancelled then none else some map
  | _ => none

/-- Keeps the progress that is shown when a map is asked for. -/
def look (s : Stage) (run : Nat) (w : Worker) : Stage :=
  match s.asksFor? w, s.process.runs[run]? with
  | some map, some l =>
    { s with seen := s.seen.push (map, s.process.statusOf .maps l.config.source) }
  | _, _ => s

/-- One step of a worker, or the end of its move. -/
def moveWorker (s : Stage) (run partition : Nat) (w : Worker) : Stage :=
  let s := s.look run w
  match s.process.step? ScriptedGrid.grid ⟨run, .worker partition⟩ with
  | some p => { s with process := p }.obey
  | none =>
    let s := { s with moving := none }
    if w.hasEnded then s.afterWorker run
    else
      match w.wakeTime? with
      | some moment => s.setTimer moment (.worker run partition)
      | none => s

/-- One step of the task that moves. -/
def move (s : Stage) (t : StageTask) : Stage :=
  match t with
  | .cancellation moment =>
    let s := { s with moving := none }
    if moment ≤ s.process.world.clock then s.cancel else s.setTimer moment t
  | .actor i => { s with moving := none }.moveActor i
  | .worker run partition =>
    match s.worker? t with
    | some w => s.moveWorker run partition w
    | none => { s with moving := none }

/-- Wakes the tasks of all timers up to the present moment. -/
def goOff (s : Stage) : Stage :=
  let due := s.timers.takeWhile fun t => t.moment ≤ s.process.world.clock
  { due.foldl (fun s t => s.wake t.task) s with timers := s.timers.drop due.length }

/-- One step of the stage: of the task that moves, else to the next task that can, else to the
    next timer. -/
def step? (s : Stage) : Option Stage :=
  match s.moving with
  | some t => some (s.move t)
  | none =>
    match s.ready with
    | t :: ts => some { s with moving := some t, ready := ts }
    | [] =>
      if s.readyLater.isEmpty then
        match s.timers with
        | [] => none
        | t :: _ =>
          let p := s.process
          some { s with process := { p with world := p.world.passUntil t.moment } }.goOff
      else some { s with ready := s.readyLater.reverse, readyLater := [] }

/-- Goes on until `isOver`, or nothing can happen any more. -/
def goOn (isOver : Stage → Bool) : Nat → Stage → Stage
  | 0, s => s
  | fuel + 1, s =>
    if isOver s then s
    else
      match s.step? with
      | none => s
      | some s => goOn isOver fuel s

/-! ## Performances -/

/-- Begins the latest run and goes on until it has finished. -/
def performRun (s : Stage) : Except Fault Stage := do
  let run := s.process.runs.size - 1
  let _ ← LoopRun.beginBound s.process.runs[run]?
  pure ((s.launch run).goOn (fun s => s.hasFinished run) patience)

/-- Registers a runner. -/
def register (s : Stage) (part : Part) : Stage :=
  let (t, logs) := s.tester.register part.name
  { s with
    tester := t, process := s.process.log logs, actors := s.actors.push { part := part } }

/-- Lets all registered runners run, until the tester has finished. -/
def performTester (s : Stage) (ctx : RunnerContext) : Stage :=
  let s := { s with context := some ctx }.directTester ctx
  let s := (List.range s.actors.size).foldl (fun s i => s.wake (.actor i)) s
  s.goOn (fun s => s.tester.phase = .finished) patience

/-- Lets one load runner run alone, without a tester. -/
def performLoader (s : Stage) (ctx : RunnerContext) (r : LoadRunner) : Stage :=
  let s := { s with context := some ctx, actors := #[{ part := .load, runner := r }] }.wake (.actor 0)
  s.goOn (fun s => (s.actors[0]?).all fun a => a.runner.phase = .ended) patience

end Stage

end GridBench
