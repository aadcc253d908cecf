/-
  GridBench.Settings.Resolve

  From the section of a runner to the plan its test loop carries out.  A
  section is refused at its first unusable setting, which the refusal names by
  its full key path; an accepted section is carried over unchanged.
-/
import GridBench.Settings.Basic
import GridBench.Number.Style
import GridBench.Fault

namespace GridBench

/-- The tuning of the boundary loop in a plan.  The lower boundary and the probability of moving
    towards a boundary cannot be configured. -/
structure BoundaryPlan where
  betweenOperationChains : SleepPolicy
  chainLength : UInt32
  resetAfterChain : Bool
  upper : BoundaryDefinition
  lower : Option BoundaryDefinition := none
  towardsBoundary : Single := Binary.zero .single false
deriving DecidableEq, Repr

/-- Everything a test loop needs to know about its runner's settings. -/
structure RunPlan where
  enabled : Bool
  numMaps : UInt16
  numRuns : UInt32
  mapBaseName : String
  usePrefix : Bool
  mapPrefix : String
  appendMapIndex : Bool
  appendClientId : Bool
  betweenRuns : SleepPolicy
  loopType : LoopType
  betweenActionBatches : SleepPolicy
  boundary : BoundaryPlan
deriving DecidableEq, Repr

namespace RunPlan

/-- The number of iterations over all partitions. -/
def totalRuns (p : RunPlan) : UInt64 := p.numMaps.toUInt64 * p.numRuns.toUInt64

/-- The partitions of the plan, one for each map. -/
def partitions (p : RunPlan) : List Nat := List.range p.numMaps.toNat

end RunPlan

/-- Why a section cannot be carried out.  Each cause holds the key path of its section. -/
inductive SettingsProblem where
  | noMaps (path : String)
  | tooManyMaps (path : String) (count : UInt32)
  | noRuns (path : String)
  | emptyBaseName (path : String)
  | emptyChain (path : String)
  | fillPercentage (path : String) (value : Single)
  | noEntries (path : String)
  | emptyPayload (path : String)
deriving DecidableEq, Repr

namespace SettingsProblem

def message : SettingsProblem → String
  | .noMaps path => path ++ ".num-maps must be at least 1"
  | .tooManyMaps path count =>
    path ++ ".num-maps must not exceed 65535, got " ++ toString count.toNat
  | .noRuns path => path ++ ".num-runs must be at least 1"
  | .emptyBaseName path => "map base name for " ++ path ++ " must not be empty"
  | .emptyChain path => path ++ ".test-loop.boundary.operation-chain.length must be at least 1"
  | .fillPercentage path value =>
    path ++ ".test-loop.boundary.operation-chain.boundary-definition.upper.map-fill-percentage "
      ++ "must be in (0, 1], got " ++ FloatStyle.plain.render value
  | .noEntries path => path ++ ".num-entries-per-map must be at least 1"
  | .emptyPayload path => path ++ ".payload-size-bytes must be at least 1"

/-- The problem as a failure. -/
def fault (p : SettingsProblem) : Fault := .config p.message

end SettingsProblem

namespace BoundarySection

/-- Whether a percentage lies above zero and not above one. -/
def isFillPercentage (x : Single) : Bool := x.isPositive && x.isAtMostOne

/-- The boundary tuning of a plan.  It is checked only if the boundary loop is selected. -/
def resolve (path : String) (s : BoundarySection) (selected : Bool) :
    Except SettingsProblem BoundaryPlan :=
  let chain := s.operationChain
  let upper := chain.boundaries.upper
  if selected && chain.length == 0 then .error (.emptyChain path)
  else if selected && !isFillPercentage upper.mapFillPercentage then
    .error (.fillPercentage path upper.mapFillPercentage)
  else
    .ok { betweenOperationChains := s.sleeps.betweenOperationChains
          chainLength := chain.length
          resetAfterChain := chain.resetAfterChain
          upper := upper }

end BoundarySection

namespace RunnerSection

/-- The plan for a runner's section, whose key path is `path` and whose maps are named after
    `base`. -/
def resolve (path base : String) (s : RunnerSection) : Except SettingsProblem RunPlan :=
  if s.numMaps = 0 then .error (.noMaps path)
  else if 65535 < s.numMaps then .error (.tooManyMaps path s.numMaps)
  else if s.numRuns = 0 then .error (.noRuns path)
  else if base.isEmpty then .error (.emptyBaseName path)
  else
    match s.testLoop.boundary.resolve path (s.testLoop.loopType == .boundary) with
    | .error p => .error p
    | .ok boundary =>
      .ok { enabled := s.enabled
            numMaps := s.numMaps.toUInt16
            numRuns := s.numRuns
            mapBaseName := base
            usePrefix := s.mapPrefix.enabled
            mapPrefix := s.mapPrefix.text
            appendMapIndex := s.appendMapIndex
            appendClientId := s.appendClientId
            betweenRuns := s.sleeps.betweenRuns
            loopType := s.testLoop.loopType
            betweenActionBatches := s.testLoop.batch.sleeps.betweenActionBatches
            boundary := boundary }

end RunnerSection

/-- The plan of the load runner: a run plan and the shape of the elements. -/
structure LoadPlan where
  run : RunPlan
  numEntries : UInt32
  payloadSize : UInt32
deriving DecidableEq, Repr

namespace LoadSection

/-- Key path of the load runner's section. -/
def keyPath : String := "map-tests.load"

/-- Base name of the load runner's maps. -/
def baseName : String := "load"

/-- The plan for the load runner's section. -/
def resolve (s : LoadSection) : Except SettingsProblem LoadPlan :=
  if s.numEntriesPerMap = 0 then .error (.noEntries keyPath)
  else if s.payloadSizeBytes = 0 then .error (.emptyPayload keyPath)
  else
    match s.runner.resolve keyPath baseName with
    | .error p => .error p
    | .ok run => .ok ⟨run, s.numEntriesPerMap, s.payloadSizeBytes⟩

end LoadSection

end GridBench
