/-
  GridBench.Store.Memory

  A store that keeps its maps in memory.  It counts every call, and a given
  number of the next calls can be made to misbehave.  Each operation says what
  it does to the entries of one map; the rest of the store is untouched.
-/
import Std.Data.ExtTreeMap
import GridBench.Store.Call

namespace GridBench

/-- The entries of one map, in increasing order of their keys. -/
abbrev Entries := Std.ExtTreeMap String Json compare

namespace MapCall

/-- What a call does to the entries of a map, and answers, if nothing goes wrong. -/
def apply (e : Entries) : (c : MapCall) → c.Answer × Entries
  | .containsKey k => (e.contains k, e)
  | .get k => (e[k]?, e)
  | .set k v => ((), e.insert k v)
  | .remove k => (e[k]?, e.erase k)

end MapCall

/-- How many of the next calls misbehave, and how acquiring a map does. -/
structure StoreFaults where
  /-- Gets that answer nothing. -/
  evictGets : Nat := 0
  /-- Gets that answer a value that is no element. -/
  corruptGets : Nat := 0
  /-- Sets that are rejected. -/
  failSets : Nat := 0
  /-- Whether acquiring a map fails. -/
  failGetMap : Bool := false
  /-- How long acquiring a map takes. -/
  getMapDelayMs : Nat := 0
deriving DecidableEq, Repr, Inhabited

/-- A new value for one of the faults. -/
inductive FaultSetting where
  | evictGets (n : Nat)
  | corruptGets (n : Nat)
  | failSets (n : Nat)
  | failGetMap (fails : Bool)
  | getMapDelayMs (ms : Nat)
deriving DecidableEq, Repr

/-- Sets one of the faults, whatever is left of it, and leaves the others. -/
def StoreFaults.set (f : StoreFaults) : FaultSetting → StoreFaults
  | .evictGets n => { f with evictGets := n }
  | .corruptGets n => { f with corruptGets := n }
  | .failSets n => { f with failSets := n }
  | .failGetMap fails => { f with failGetMap := fails }
  | .getMapDelayMs ms => { f with getMapDelayMs := ms }

/-- How many calls of each kind were made. -/
structure CallCounts where
  getMap : Nat := 0
  containsKey : Nat := 0
  get : Nat := 0
  set : Nat := 0
  remove : Nat := 0
  destroy : Nat := 0
deriving DecidableEq, Repr, Inhabited

namespace CallCounts

def total (c : CallCounts) : Nat :=
  c.getMap + c.containsKey + c.get + c.set + c.remove + c.destroy

/-- One more call on a map. -/
def note (c : CallCounts) : MapCall → CallCounts
  | .containsKey _ => { c with containsKey := c.containsKey + 1 }
  | .get _ => { c with get := c.get + 1 }
  | .set .. => { c with set := c.set + 1 }
  | .remove _ => { c with remove := c.remove + 1 }

def add (a b : CallCounts) : CallCounts :=
  ⟨a.getMap + b.getMap, a.containsKey + b.containsKey, a.get + b.get, a.set + b.set,
    a.remove + b.remove, a.destroy + b.destroy⟩

end CallCounts

/-- A store in memory: the maps by name, the faults to come, the calls made, and the handles
    given out and released. -/
structure MemoryStore where
  maps : Std.ExtTreeMap String Entries compare := ∅
  faults : StoreFaults := {}
  calls : CallCounts := {}
  issued : Nat := 0
  released : List Nat := []

namespace MemoryStore

instance : Inhabited MemoryStore := ⟨{}⟩

/-- The value a corrupted get answers. -/
def corrupted : Json := .text "corrupted"

/-- The entries of a map; an unknown map has none. -/
def entries (s : MemoryStore) (map : String) : Entries := s.maps.getD map ∅

/-- Replaces the entries of a map. -/
def withEntries (s : MemoryStore) (map : String) (e : Entries) : MemoryStore :=
  { s with maps := s.maps.insert map e }

def isReleased (s : MemoryStore) (h : Handle) : Bool := s.released.contains h.number

/-- Sets one of the faults. -/
def setFault (s : MemoryStore) (x : FaultSetting) : MemoryStore :=
  { s with faults := s.faults.set x }

/-! ## Acquiring -/

/-- Counts a request for a map. -/
def noteAcquire (s : MemoryStore) : MemoryStore :=
  { s with calls := { s.calls with getMap := s.calls.getMap + 1 } }

/-- Answers a request for a map that has been counted: a new handle, and the map exists now. -/
def acquire (s : MemoryStore) (map : String) : Except Fault Handle × MemoryStore :=
  if s.faults.failGetMap then (.error (.remote ("unable to acquire map '" ++ map ++ "'")), s)
  else
    (.ok ⟨s.issued, map⟩,
      { s.withEntries map (s.entries map) with issued := s.issued + 1 })

/-! ## Calls -/

/-- Carries a call out on the map of a handle. -/
def applyCall (s : MemoryStore) (h : Handle) (c : MapCall) : Except Fault c.Answer × MemoryStore :=
  let (answer, e) := c.apply (s.entries h.map)
  (.ok answer, s.withEntries h.map e)

/-- A call that reads a value: the next ones may answer nothing, the ones after them something
    corrupted. -/
def readValue (s : MemoryStore) (h : Handle) (key : String) :
    Except Fault (Option Json) × MemoryStore :=
  if 0 < s.faults.evictGets then
    (.ok none, { s with faults := { s.faults with evictGets := s.faults.evictGets - 1 } })
  else if 0 < s.faults.corruptGets then
    (.ok (some corrupted),
      { s with faults := { s.faults with corruptGets := s.faults.corruptGets - 1 } })
  else (.ok (s.entries h.map)[key]?, s)

/-- A call that writes a value: the next ones may be rejected. -/
def writeValue (s : MemoryStore) (h : Handle) (key : String) (value : Json) :
    Except Fault Unit × MemoryStore :=
  if 0 < s.faults.failSets then
    (.error (.remote ("set of key '" ++ key ++ "' in map '" ++ h.map ++ "' rejected")),
      { s with faults := { s.faults with failSets := s.faults.failSets - 1 } })
  else s.applyCall h (.set key value)

/-- Counts a call and answers it. -/
def call (s : MemoryStore) (h : Handle) (c : MapCall) : Except Fault c.Answer × MemoryStore :=
  let s := { s with calls := s.calls.note c }
  if s.isReleased h then
    (.error (.remote ("handle of map '" ++ h.map ++ "' has been destroyed")), s)
  else
    match c with
    | .containsKey key => (.ok ((s.entries h.map).contains key), s)
    | .get key => s.readValue h key
    | .set key value => s.writeValue h key value
    | .remove key => s.applyCall h (.remove key)

/-- Counts the release of a handle and answers it; the map keeps its entries. -/
def release (s : MemoryStore) (h : Handle) : Except Fault Unit × MemoryStore :=
  let s := { s with calls := { s.calls with destroy := s.calls.destroy + 1 } }
  if s.isReleased h then (.error (.remote ("map '" ++ h.map ++ "' destroyed twice")), s)
  else (.ok (), { s with released := h.number :: s.released })

/-! ## Inspection -/

/-- The names of the maps that were ever acquired, in increasing order. -/
def mapNames (s : MemoryStore) : List String := s.maps.keys

/-- The keys a map holds, in increasing order. -/
def keysOf (s : MemoryStore) (map : String) : List String := (s.entries map).keys

/-- How many entries a map has. -/
def sizeOf (s : MemoryStore) (map : String) : Nat := (s.entries map).size

/-! ## As a grid -/

/-- The store as a grid: acquiring takes the delay that is set, everything else no time. -/
def grid : Grid MemoryStore where
  start s r :=
    match r with
    | .acquire _ => (s.faults.getMapDelayMs, 0, s.noteAcquire)
    | _ => (0, 0, s)
  finish s _ r :=
    match r with
    | .acquire map => s.acquire map
    | .call h c => s.call h c
    | .release h => s.release h

end MemoryStore

end GridBench
