/-
  GridBench.Rehearsal.Script

  A grid that follows a script.  Each map has a store of its own, whose faults
  the script sets; calls may take time; and after a given call the run may be
  cancelled, or a handle released behind its owner's back.  All requests are
  kept, in order, with their answers.
-/
import GridBench.Store.Memory

namespace GridBench

/-- The n-th finished request of an operation, or of all of them. -/
structure Trigger where
  operation : String
  count : Nat
deriving DecidableEq, Repr

/-- What a scripted grid does apart from answering. -/
structure Script where
  /-- The faults of single maps. -/
  faults : List (String × StoreFaults) := []
  /-- The faults of all other maps. -/
  commonFaults : StoreFaults := {}
  callDelayMs : Nat := 0
  cancelAfter : Option Trigger := none
  destroyAfter : Option Trigger := none
deriving Inhabited

/-- A request that was sent, and its answer, if it has one. -/
structure Exchange where
  request : Request
  answer : Option (Except Fault request.Answer) := none

/-- A scripted grid. -/
structure ScriptedGrid where
  script : Script := {}
  stores : Std.ExtTreeMap String MemoryStore compare := ∅
  exchanges : Array Exchange := #[]
  finished : CallCounts := {}
  /-- Whether the script has cancelled the run. -/
  tripped : Bool := false

namespace ScriptedGrid

/-- A store for a new map. -/
def newStore (s : Script) (map : String) : MemoryStore :=
  { faults := (s.faults.lookup map).getD s.commonFaults }

/-- The store of a map. -/
def store (g : ScriptedGrid) (map : String) : MemoryStore :=
  g.stores.getD map (newStore g.script map)

/-- Replaces the store of a map. -/
def withStore (g : ScriptedGrid) (map : String) (s : MemoryStore) : ScriptedGrid :=
  { g with stores := g.stores.insert map s }

/-- Stores entries of a map before a run; the faults do not apply to that. -/
def preload (g : ScriptedGrid) (map : String) (entries : List (String × Json)) : ScriptedGrid :=
  let faults := (g.store map).faults
  let s : MemoryStore := { g.store map with faults := {} }
  let s := match s.noteAcquire.acquire map with
    | (.ok h, s) => entries.foldl (fun (s : MemoryStore) (k, v) => (s.call h (.set k v)).2) s
    | (.error _, s) => s
  g.withStore map { s with faults := faults }

/-- How often an operation has finished. -/
def finishedCount (c : CallCounts) : String → Nat
  | "get_map" => c.getMap
  | "contains_key" => c.containsKey
  | "get" => c.get
  | "set" => c.set
  | "remove" => c.remove
  | "destroy" => c.destroy
  | _ => 0

/-- One more finished request. -/
def noteFinished (c : CallCounts) : Request → CallCounts
  | .acquire _ => { c with getMap := c.getMap + 1 }
  | .call _ m => c.note m
  | .release _ => { c with destroy := c.destroy + 1 }

/-- Whether a trigger fires at a request that has just been counted. -/
def fires (t : Option Trigger) (c : CallCounts) (r : Request) : Bool :=
  t.any fun t =>
    if t.operation = "any" then t.count = c.total
    else t.operation = r.operation && t.count = finishedCount c t.operation

/-- The handle a request is made on. -/
def handle? : Request → Option Handle
  | .acquire _ => none
  | .call h _ => some h
  | .release h => some h

/-- Follows the script after a finished request. -/
def react (g : ScriptedGrid) (r : Request) : ScriptedGrid :=
  let c := noteFinished g.finished r
  let g := { g with finished := c, tripped := g.tripped || fires g.script.cancelAfter c r }
  if fires g.script.destroyAfter c r then
    match handle? r with
    | some h => g.withStore h.map ((g.store h.map).release h).2
    | none => g
  else g

/-- Keeps the answer to a request. -/
def record (g : ScriptedGrid) (ticket : Nat) (r : Request) (a : Except Fault r.Answer) :
    ScriptedGrid :=
  { g with exchanges := g.exchanges.setIfInBounds ticket ⟨r, some a⟩ }

/-- The delay of a request that is sent now. -/
def delay (g : ScriptedGrid) : Request → Nat
  | .acquire map => (g.store map).faults.getMapDelayMs
  | .call .. => g.script.callDelayMs
  | .release _ => 0

/-- Sends a request. -/
def start (g : ScriptedGrid) (r : Request) : Nat × Nat × ScriptedGrid :=
  let delay := g.delay r
  let ticket := g.exchanges.size
  let g := { g with exchanges := g.exchanges.push { request := r } }
  match r with
  | .acquire map => (delay, ticket, g.withStore map (g.store map).noteAcquire)
  | _ => (delay, ticket, g)

/-- Answers a request. -/
def finish (g : ScriptedGrid) (ticket : Nat) (r : Request) :
    Except Fault r.Answer × ScriptedGrid :=
  let (a, s) := MemoryStore.grid.finish (g.store r.map) 0 r
  (a, ((g.withStore r.map s).record ticket r a).react r)

/-- The scripted grid as a grid. -/
def grid : Grid ScriptedGrid := ⟨start, finish⟩

end ScriptedGrid

end GridBench
