/-
  GridBench.Settings.Basic

  The settings of a configuration file, section by section, with the values
  that stand in for settings the file leaves out.
-/
import GridBench.Number.Decimal
import GridBench.Draws

namespace GridBench

/-- How long to pause: not at all, a fixed time, or a random time up to a limit. -/
structure SleepPolicy where
  enabled : Bool := false
  durationMs : UInt64 := 0
  randomised : Bool := false
deriving DecidableEq, Repr, Inhabited

namespace SleepPolicy

def disabled : SleepPolicy := {}

def fixed (ms : UInt64) : SleepPolicy := ⟨true, ms, false⟩

def random (most : UInt64) : SleepPolicy := ⟨true, most, true⟩

/-- How many milliseconds one pause lasts. -/
def duration (s : SleepPolicy) : Pick :=
  if s.enabled then
    if s.randomised then .below (s.durationMs.toNat + 1) else .exactly s.durationMs.toNat
  else .exactly 0

end SleepPolicy

/-- Which cycle of operations a test loop runs. -/
inductive LoopType where
  | batch
  | boundary
deriving DecidableEq, Repr, Inhabited

namespace LoopType

def name : LoopType → String
  | .batch => "batch"
  | .boundary => "boundary"

end LoopType

/-- The text put in front of map names. -/
structure MapPrefix where
  enabled : Bool := true
  text : String := "ht_"
deriving DecidableEq, Repr, Inhabited

/-- Pauses of a runner. -/
structure RunnerSleeps where
  betweenRuns : SleepPolicy := {}
deriving DecidableEq, Repr, Inhabited

/-- Pauses of the batch loop. -/
structure BatchSleeps where
  betweenActionBatches : SleepPolicy := {}
deriving DecidableEq, Repr, Inhabited

structure BatchSection where
  sleeps : BatchSleeps := {}
deriving DecidableEq, Repr, Inhabited

/-- Pauses of the boundary loop. -/
structure BoundarySleeps where
  betweenOperationChains : SleepPolicy := {}
deriving DecidableEq, Repr, Inhabited

/-- How full a map is to become before a chain of operations turns round. -/
structure BoundaryDefinition where
  /-- Four fifths, rounded to single precision. -/
  mapFillPercentage : Single := Binary.ofRatio .single false 4 5
  randomised : Bool := false
deriving DecidableEq, Repr, Inhabited

structure BoundaryDefinitions where
  upper : BoundaryDefinition := {}
deriving DecidableEq, Repr, Inhabited

/-- A chain of operations of the boundary loop. -/
structure OperationChain where
  length : UInt32 := 1000
  resetAfterChain : Bool := true
  boundaries : BoundaryDefinitions := {}
deriving DecidableEq, Repr, Inhabited

structure BoundarySection where
  sleeps : BoundarySleeps := {}
  operationChain : OperationChain := {}
deriving DecidableEq, Repr, Inhabited

/-- The loop type and the tuning of each type. -/
structure TestLoopSection where
  loopType : LoopType := .batch
  batch : BatchSection := {}
  boundary : BoundarySection := {}
deriving DecidableEq, Repr, Inhabited

/-- The settings that every map runner has. -/
structure RunnerSection where
  enabled : Bool := true
  numMaps : UInt32 := 10
  numRuns : UInt32 := 100
  appendMapIndex : Bool := true
  appendClientId : Bool := false
  mapPrefix : MapPrefix := {}
  sleeps : RunnerSleeps := {}
  testLoop : TestLoopSection := {}
deriving DecidableEq, Repr, Inhabited

/-- The settings of the load runner: those of every runner, and the shape of its elements. -/
structure LoadSection where
  runner : RunnerSection := {}
  numEntriesPerMap : UInt32 := 1000
  payloadSizeBytes : UInt32 := 1000
deriving DecidableEq, Repr, Inhabited

/-- The sections of all map runners. -/
structure MapTests where
  load : LoadSection := {}
deriving DecidableEq, Repr, Inhabited

/-- How to reach the grid. -/
structure ClientSettings where
  clusterName : String := "dev"
  members : List String := ["127.0.0.1:5701"]
  getMapTimeoutMs : UInt64 := 10000
  identity : Option String := none
deriving DecidableEq, Repr, Inhabited

/-- A whole configuration file. -/
structure Settings where
  logLevel : Option String := none
  client : ClientSettings := {}
  mapTests : MapTests := {}
deriving DecidableEq, Repr, Inhabited

end GridBench
