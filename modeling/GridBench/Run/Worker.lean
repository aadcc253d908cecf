/-
  GridBench.Run.Worker

  Workers among others.  A worker is running its program, pausing, or waiting
  for an answer of the grid; one step carries it to its next effect.  All
  workers of a process share one world: the clock, the cancellation, the grid,
  the draws and the journal.  What a step publishes is handed to the caller,
  because each run has a gatherer of its own.
-/
import GridBench.Run.Proc

namespace GridBench

/-- What the workers of a process share. -/
structure World (σ : Type) where
  /-- Milliseconds since the start. -/
  clock : Nat := 0
  cancelled : Bool := false
  grid : σ
  draws : Draws := .cyclic []
  journal : Journal := #[]

namespace World

variable {σ : Type}

/-- Writes log records. -/
def log (w : World σ) (rs : List Record) : World σ := { w with journal := w.journal ++ rs }

/-- Lets time pass until the given moment, if it is still to come. -/
def passUntil (w : World σ) (moment : Nat) : World σ := { w with clock := max w.clock moment }

/-- Cancels all remote calls that can be cancelled, those to come included. -/
def cancel (w : World σ) : World σ := { w with cancelled := true }

end World

/-- A request under way: its ticket, when it was sent, when its answer is due, and how long the
    sender waits for it. -/
structure Flight where
  ticket : Nat
  sentAt : Nat
  due : Nat
  withinMs : Option Nat
deriving DecidableEq, Repr

namespace Flight

/-- The moment at which the sender can go on in any case. -/
def wakeTime (f : Flight) : Nat :=
  match f.withinMs with
  | none => f.due
  | some ms => min f.due (f.sentAt + ms)

variable {σ : Type}

/-- What the sender gets once it can go on: the grid's answer if it is due by then, else the
    failure to answer in time. -/
def land (g : Grid σ) (w : World σ) (r : Request) (f : Flight) :
    Except Fault r.Answer × World σ :=
  if w.clock < f.due then (.error (.timeout (f.withinMs.getD 0) r.describe), w)
  else
    let (a, grid) := g.finish w.grid f.ticket r
    (a, { w with grid := grid })

/-- What the sender gets by now.  A cancellation comes before everything else. -/
def answer? (g : Grid σ) (w : World σ) (r : Request) (f : Flight) :
    Option (Except Fault r.Answer × World σ) :=
  if w.cancelled && r.isCancellable then some (.error .cancelled, w)
  else if f.wakeTime ≤ w.clock then some (f.land g w r)
  else none

end Flight

/-- A worker.  The result of its program is the message of the crash it ended with, if it did. -/
inductive Worker where
  | running (p : Proc (Option String))
  | pausing (wakeAt : Nat) (p : Proc (Option String))
  | waiting (r : Request) (f : Flight) (next : Except Fault r.Answer → Proc (Option String))

namespace Worker

variable {σ : Type}

instance : Inhabited Worker := ⟨.running default⟩

/-- Whether the worker's program has ended. -/
def hasEnded : Worker → Bool
  | .running (.done _) => true
  | _ => false

/-- The message of the crash the worker ended with. -/
def crash? : Worker → Option String
  | .running (.done c) => c
  | _ => none

/-- The moment at which a worker that cannot move will be able to, cancellations apart. -/
def wakeTime? : Worker → Option Nat
  | .running _ => none
  | .pausing wakeAt _ => some wakeAt
  | .waiting _ f _ => some f.wakeTime

/-- Whether a cancellation lets the worker move. -/
def isCancellable : Worker → Bool
  | .waiting r .. => r.isCancellable
  | _ => false

/-- Sends a request, unless the run is cancelled. -/
def send (g : Grid σ) (w : World σ) (r : Request) (withinMs : Option Nat)
    (next : Except Fault r.Answer → Proc (Option String)) : World σ × Worker :=
  if w.cancelled && r.isCancellable then (w, .running (next (.error .cancelled)))
  else
    let (delay, ticket, grid) := g.start w.grid r
    ({ w with grid := grid }, .waiting r ⟨ticket, w.clock, w.clock + delay, withinMs⟩ next)

/-- One step, and what it publishes; nothing if the worker cannot move. -/
def step? (g : Grid σ) (w : World σ) : Worker → Option (World σ × Worker × List StatusUpdate)
  | .running (.done _) => none
  | .running (.op (.ask r withinMs) k) =>
    let (w, t) := send g w r withinMs k
    some (w, t, [])
  | .running (.op (.pause ms) k) => some (w, .pausing (w.clock + ms) (k ()), [])
  | .running (.op .clock k) => some (w, .running (k w.clock), [])
  | .running (.op (.pick p) k) =>
    let (n, draws) := p.take w.draws
    some ({ w with draws := draws }, .running (k n), [])
  | .running (.op (.log r) k) => some (w.log [r], .running (k ()), [])
  | .running (.op (.publish u) k) => some (w, .running (k ()), [u])
  | .pausing wakeAt p => if wakeAt ≤ w.clock then some (w, .running p, []) else none
  | .waiting r f k => (f.answer? g w r).map fun (a, w) => (w, .running (k a), [])

end Worker

end GridBench
