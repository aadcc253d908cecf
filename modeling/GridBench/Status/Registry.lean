/-
  GridBench.Status.Registry

  All runs whose progress can be looked up, by the kind of structure they
  exercise and their source.  A registration holds the run's identifier and a
  reference of type `α` to its progress.  The registrations are kept in
  increasing order, and a new one replaces that of the same kind and source.
-/
import GridBench.Form.Shape
import GridBench.Journal
import GridBench.RunId

namespace GridBench

/-- The kind of structure a test loop exercises. -/
inductive LoopKind where
  | maps
  | queues
deriving DecidableEq, Repr, Inhabited

namespace LoopKind

def name : LoopKind → String
  | .maps => "maps"
  | .queues => "queues"

def all : List LoopKind := [.maps, .queues]

def shape : Form.Shape LoopKind := .choice [("maps", .maps), ("queues", .queues)] name

end LoopKind

/-- One registered run. -/
structure Registration (α : Type) where
  kind : LoopKind
  source : String
  runId : RunId
  progress : α

/-- The registered runs. -/
structure Registry (α : Type) where
  runs : List (Registration α) := []

namespace Registration

variable {α : Type}

/-- Whether two registrations are for the same kind and source. -/
def sameRun (a b : Registration α) : Bool := a.kind = b.kind && a.source = b.source

/-- The order of registrations: by the name of the kind, then by source. -/
def before (a b : Registration α) : Bool :=
  a.kind.name < b.kind.name || (a.kind = b.kind && a.source < b.source)

/-- Puts a registration into its place. -/
def insertInto (r : Registration α) : List (Registration α) → List (Registration α)
  | [] => [r]
  | s :: rest =>
    if r.sameRun s then r :: rest
    else if r.before s then r :: s :: rest
    else s :: insertInto r rest

end Registration

namespace Registry

variable {α : Type}

instance : Inhabited (Registry α) := ⟨{}⟩

/-- Registers a run, in place of the one of the same kind and source. -/
def register (g : Registry α) (r : Registration α) : Registry α × List Record :=
  (⟨r.insertInto g.runs⟩,
    [⟨.debug, .registry, "Registering " ++ r.kind.name ++ " test loop '" ++ r.source ++ "' (run "
      ++ r.runId.render ++ ")"⟩])

/-- Every registered run, as its kind, its source and its identifier. -/
def registered (g : Registry α) : List (LoopKind × String × RunId) :=
  g.runs.map fun r => (r.kind, r.source, r.runId)

/-- The registration of a kind and source. -/
def find? (g : Registry α) (kind : LoopKind) (source : String) : Option (Registration α) :=
  g.runs.find? fun r => r.kind = kind && r.source = source

/-- The progress of a registered run; `read` follows the reference, and a run without progress
    shows none. -/
def statusOf (read : α → Option Members) (g : Registry α) (kind : LoopKind) (source : String) :
    Option Members :=
  (g.find? kind source).map fun r => (read r.progress).getD []

/-- The progress of all runs of a kind, by source. -/
def assembleKind (read : α → Option Members) (g : Registry α) (kind : LoopKind) : Json :=
  .object ((g.runs.filter fun r => r.kind = kind).map fun r =>
    (r.source, .object ((read r.progress).getD [])))

/-- The progress of all runs, by kind and source. -/
def assemble (read : α → Option Members) (g : Registry α) : Json :=
  .object (LoopKind.all.map fun kind => (kind.name, assembleKind read g kind))

/-- The registry in one line. -/
def describe (g : Registry α) : String :=
  "StatusRegistry \x7b registered: " ++ toString g.runs.length ++ " \x7d"

end Registry

end GridBench
