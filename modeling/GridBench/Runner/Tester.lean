/-
  GridBench.Runner.Tester

  All registered runners side by side.  The tester launches each of them once
  and waits until all have ended, however they end; what it reports does not
  depend on the order in which they do.
-/
import GridBench.Journal
import GridBench.Run.Loop

namespace GridBench

/-- How far a runner's task has come. -/
inductive RunnerTask where
  | registered
  | launched
  | finished
  | panicked (message : String)
deriving DecidableEq, Repr

namespace RunnerTask

/-- Whether the task has ended. -/
def hasEnded : RunnerTask → Bool
  | .finished => true
  | .panicked _ => true
  | _ => false

/-- The message of the panic the task ended with. -/
def panic? : RunnerTask → Option String
  | .panicked message => some message
  | _ => none

end RunnerTask

/-- How far the tester has come. -/
inductive TesterPhase where
  | idle
  | launching
  | joining
  | finished
deriving DecidableEq, Repr

/-- The tester: the names of the runners, in the order of their registration, and their tasks. -/
structure Tester where
  runners : List (String × RunnerTask) := []
  phase : TesterPhase := .idle
deriving DecidableEq, Repr, Inhabited

namespace Tester

/-- A log record of the tester. -/
def record (severity : Severity) (message : String) : Record := ⟨severity, .mapTester, message⟩

/-- Registers a runner behind the others. -/
def register (t : Tester) (name : String) : Tester × List Record :=
  ({ t with runners := t.runners ++ [(name, .registered)] },
    [record .debug ("Registering map runner '" ++ name ++ "'")])

def names (t : Tester) : List String := t.runners.map Prod.fst

/-- What is logged about the runners that panicked, in the order of their registration. -/
def panicRecords (t : Tester) : List Record :=
  t.runners.zipIdx.filterMap fun ((name, task), i) => task.panic?.map fun message =>
    record .error ("Map runner '" ++ name ++ "' panicked: " ++ LoopRun.panicText i message)

/-- The number of the first runner that is not launched yet. -/
def nextToLaunch? (t : Tester) : Option Nat :=
  t.runners.findIdx? fun (_, task) => task = .registered

/-- Moves the task of one runner. -/
def withTask (t : Tester) (i : Nat) (task : RunnerTask) : Tester :=
  { t with runners := t.runners.modify i fun (name, _) => (name, task) }

/-- A step of the tester's own task, and what it logs. -/
def mainStep? (cluster : String) (t : Tester) : Option (Tester × List Record) :=
  match t.phase with
  | .idle =>
    some ({ t with phase := .launching },
      [record .info ("Starting " ++ toString t.runners.length
        ++ " map runner(s) against cluster '" ++ cluster ++ "'")])
  | .launching =>
    match t.nextToLaunch? with
    | some i => some (t.withTask i .launched, [])
    | none => some ({ t with phase := .joining }, [])
  | .joining =>
    if t.runners.all fun (_, task) => task.hasEnded then
      some ({ t with phase := .finished },
        t.panicRecords ++ [record .info "All map runners finished"])
    else none
  | .finished => none

/-- The end of a runner's task, which must have been launched. -/
def endStep? (t : Tester) (i : Nat) (panic : Option String) : Option Tester :=
  match t.runners[i]? with
  | some (_, .launched) => some (t.withTask i (panic.elim .finished .panicked))
  | _ => none

/-- Carries out the steps of the tester's own task, at most `fuel` of them. -/
def settleWithin (cluster : String) : Nat → Tester → Tester × List Record
  | 0, t => (t, [])
  | fuel + 1, t =>
    match t.mainStep? cluster with
    | none => (t, [])
    | some (t, logs) =>
      let (t, more) := settleWithin cluster fuel t
      (t, logs ++ more)

/-- Carries out the steps of the tester's own task until it waits: it begins, launches each
    runner, and ends. -/
def settle (cluster : String) (t : Tester) : Tester × List Record :=
  settleWithin cluster (t.runners.length + 3) t

end Tester

end GridBench
