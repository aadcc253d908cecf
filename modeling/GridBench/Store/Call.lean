/-
  GridBench.Store.Call

  The calls a client makes on the maps of a grid, and what a grid is to its
  clients: something that takes calls, answers each after a delay, and may
  answer anything at all.
-/
import GridBench.Json.Basic
import GridBench.Fault

namespace GridBench

/-- A call on one map. -/
inductive MapCall where
  | containsKey (key : String)
  | get (key : String)
  | set (key : String) (value : Json)
  | remove (key : String)

namespace MapCall

/-- What a call answers if it succeeds. -/
abbrev Answer : MapCall → Type
  | .containsKey _ => Bool
  | .get _ => Option Json
  | .set .. => Unit
  | .remove _ => Option Json

/-- The key a call is about. -/
def key : MapCall → String
  | .containsKey k => k
  | .get k => k
  | .set k _ => k
  | .remove k => k

/-- The name of a call's operation. -/
def operation : MapCall → String
  | .containsKey _ => "contains_key"
  | .get _ => "get"
  | .set .. => "set"
  | .remove _ => "remove"

end MapCall

/-- A client's handle to a map. -/
structure Handle where
  number : Nat
  map : String
deriving DecidableEq, Repr, Inhabited

/-- A request to a grid. -/
inductive Request where
  | acquire (map : String)
  | call (handle : Handle) (c : MapCall)
  | release (handle : Handle)

namespace Request

/-- What a request answers if it succeeds. -/
abbrev Answer : Request → Type
  | .acquire _ => Handle
  | .call _ c => c.Answer
  | .release _ => Unit

/-- The map a request is about. -/
def map : Request → String
  | .acquire m => m
  | .call h _ => h.map
  | .release h => h.map

/-- The name of a request's operation. -/
def operation : Request → String
  | .acquire _ => "get_map"
  | .call _ c => c.operation
  | .release _ => "destroy"

/-- The operation and what it is about. -/
def describe : Request → String
  | .acquire m => "get_map(" ++ m ++ ")"
  | .call _ c => c.operation ++ "(" ++ c.key ++ ")"
  | .release h => "destroy(" ++ h.map ++ ")"

/-- Whether a cancelled run gives the request up.  Releasing a handle is never given up. -/
def isCancellable : Request → Bool
  | .release _ => false
  | _ => true

end Request

/-- A grid whose state is of type `σ`.  A request is started and, after the delay in
    milliseconds that the start announces, finished; the ticket of the start names it. -/
structure Grid (σ : Type) where
  start : σ → Request → Nat × Nat × σ
  finish : σ → Nat → (r : Request) → Except Fault r.Answer × σ

end GridBench
