/-
  GridBench.Status.Gatherer

  The single writer of a progress table.  Updates wait in a queue that anyone
  with a sender may append to.  Before the gatherer listens, the table may be
  written directly; from then on only its task writes, one queued update after
  the other, until a stop makes the last write, marks the run as finished and
  closes the queue.
-/
import GridBench.Status.Progress
import GridBench.Journal
import GridBench.Fault

namespace GridBench

/-- How far a gatherer's task has come. -/
inductive GathererPhase where
  /-- It has not been started, and the queue waits for it. -/
  | idle
  | listening
  /-- It has ended. -/
  | finished
  /-- It was never started, and the queue is gone. -/
  | abandoned
deriving DecidableEq, Repr

/-- A gatherer: its table, the updates waiting, its phase, and how many senders there are. -/
structure Gatherer where
  table : Progress := ∅
  queue : List StatusUpdate := []
  phase : GathererPhase := .idle
  senders : Nat := 1

namespace Gatherer

instance : Inhabited Gatherer := ⟨{}⟩

/-- Whether updates can still be queued. -/
def isOpen (g : Gatherer) : Bool := g.phase = .idle || g.phase = .listening

/-- Writes one fact directly.  A stop has no effect here. -/
def insertNow (g : Gatherer) (u : StatusUpdate) : Except Fault Gatherer :=
  if g.phase = .idle then
    match u with
    | .update key value => .ok { g with table := g.table.insert key value }
    | .stop => .ok g
  else .error (.invalidState "synchronous status insertion after gathering started")

/-- Queues an update, and tells whether it was accepted. -/
def send (g : Gatherer) (u : StatusUpdate) : Gatherer × Bool :=
  if g.isOpen then ({ g with queue := g.queue ++ [u] }, true) else (g, false)

/-- What is logged about a message that came too late. -/
def dropped : StatusUpdate → Record
  | .update .. => ⟨.debug, .gatherer, "Status gathering already stopped, dropping update"⟩
  | .stop => ⟨.debug, .gatherer, "Status gathering already stopped"⟩

/-- Queues an update through the gatherer itself, which logs when it comes too late. -/
def post (g : Gatherer) (u : StatusUpdate) : Gatherer × List Record :=
  let (g, accepted) := g.send u
  (g, if accepted then [] else [dropped u])

/-- Starts the gatherer's task. -/
def listen (g : Gatherer) : Except Fault Gatherer :=
  if g.phase = .idle then .ok { g with phase := .listening }
  else .error (.invalidState "status gatherer is already listening")

/-- One step of the task: it takes the first update from the queue, or ends if there is none
    and no sender is left to add one. -/
def step? (g : Gatherer) : Option (Gatherer × List Record) :=
  if g.phase = .listening then
    match g.queue with
    | .update key value :: rest => some ({ g with table := g.table.insert key value, queue := rest }, [])
    | .stop :: _ =>
      some ({ g with
        table := g.table.insert runnerFinishedKey (.bool true), queue := [], phase := .finished }, [])
    | [] =>
      if g.senders = 0 then
        some ({ g with phase := .finished },
          [⟨.warn, .gatherer, "Status channel closed without stop request"⟩])
      else none
  else none

/-- Lets the task process what is queued, at most `fuel` updates. -/
def drain : Nat → Gatherer → Gatherer × List Record
  | 0, g => (g, [])
  | fuel + 1, g =>
    match g.step? with
    | none => (g, [])
    | some (g, logs) =>
      let (g, more) := drain fuel g
      (g, logs ++ more)

/-- Lets the task process everything that is queued. -/
def settle (g : Gatherer) : Gatherer × List Record := drain (g.queue.length + 1) g

/-- Hands out another sender. -/
def hold (g : Gatherer) : Gatherer := { g with senders := g.senders + 1 }

/-- Gives up a sender. -/
def letGo (g : Gatherer) : Gatherer := { g with senders := g.senders - 1 }

/-- Gives up the gatherer itself: its own sender, and the queue if no task has taken it. -/
def discard (g : Gatherer) : Gatherer :=
  let g := g.letGo
  if g.phase = .idle then { g with phase := .abandoned, queue := [] } else g

/-- Whether the last write has been made. -/
def isStopped (g : Gatherer) : Bool := g.table.isFinished

end Gatherer

end GridBench
