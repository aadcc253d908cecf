/-
  GridBench.Proofs.Settings.Blend

  Settings put together from two: those at the kept paths from one, the others
  from the other.  Every section of a configuration file restores its part of
  such a blend with the defaults.
-/
import GridBench.Proofs.Form.Sections
import GridBench.Settings.Form

namespace GridBench

open GridBench.Form GridBench.Yaml

/-- A setting that has no parts: the one's if its path is kept, else the other's. -/
def chosen (keep : List String → Bool) (key : String) (mine usual : α) : α :=
  if keep [key] then mine else usual

variable {keep : List String → Bool} {admits : List String → Node → Prop} {depth : Nat}

namespace SleepPolicy

def blend (keep : List String → Bool) (c usual : SleepPolicy) : SleepPolicy where
  enabled := chosen keep "enabled" c.enabled usual.enabled
  durationMs := chosen keep "duration-ms" c.durationMs usual.durationMs
  randomised := chosen keep "enable-randomness" c.randomised usual.randomised

theorem restores (hroom : Roomy depth admits) (c : SleepPolicy) :
    Restores keep admits (shape.toDatum c) (typed (depth + 1) shape.ofDatum) (c.blend keep {}) {} :=
  .section_typed hroom
    (.cons (.of_typed (.bool ..) rfl) <| .cons (.of_typed (.uint64_typed ..) rfl) <|
      .cons (.of_typed (.bool ..) rfl) .nil)
    (by decide) (by simp [commute_iff]) rfl

end SleepPolicy

namespace MapPrefix

def blend (keep : List String → Bool) (c usual : MapPrefix) : MapPrefix where
  enabled := chosen keep "enabled" c.enabled usual.enabled
  text := chosen keep "prefix" c.text usual.text

theorem restores (hroom : Roomy depth admits) (c : MapPrefix) :
    Restores keep admits (shape.toDatum c) (typed (depth + 1) shape.ofDatum) (c.blend keep {}) {} :=
  .section_typed hroom
    (.cons (.of_typed (.bool ..) rfl) <| .cons (.of_typed (.text_typed ..) rfl) .nil)
    (by decide) (by simp [commute_iff]) rfl

end MapPrefix

namespace RunnerSleeps

def blend (keep : List String → Bool) (c usual : RunnerSleeps) : RunnerSleeps where
  betweenRuns := c.betweenRuns.blend (under keep "between-runs") usual.betweenRuns

theorem restores (hroom : Roomy (depth + 1) admits) (c : RunnerSleeps) :
    Restores keep admits (shape.toDatum c) (typed (depth + 2) shape.ofDatum) (c.blend keep {}) {} :=
  .section_typed hroom
    (.cons (.of_typed (c.betweenRuns.restores (hroom.under _)) rfl) .nil)
    (by decide) (by simp) rfl

end RunnerSleeps

namespace BatchSleeps

def blend (keep : List String → Bool) (c usual : BatchSleeps) : BatchSleeps where
  betweenActionBatches :=
    c.betweenActionBatches.blend (under keep "between-action-batches") usual.betweenActionBatches

theorem restores (hroom : Roomy (depth + 1) admits) (c : BatchSleeps) :
    Restores keep admits (shape.toDatum c) (typed (depth + 2) shape.ofDatum) (c.blend keep {}) {} :=
  .section_typed hroom
    (.cons (.of_typed (c.betweenActionBatches.restores (hroom.under _)) rfl) .nil)
    (by decide) (by simp) rfl

end BatchSleeps

namespace BatchSection

def blend (keep : List String → Bool) (c usual : BatchSection) : BatchSection where
  sleeps := c.sleeps.blend (under keep "sleeps") usual.sleeps

theorem restores (hroom : Roomy (depth + 2) admits) (c : BatchSection) :
    Restores keep admits (shape.toDatum c) (typed (depth + 3) shape.ofDatum) (c.blend keep {}) {} :=
  .section_typed hroom
    (.cons (.of_typed (c.sleeps.restores (hroom.under _)) rfl) .nil)
    (by decide) (by simp) rfl

end BatchSection

namespace BoundarySleeps

def blend (keep : List String → Bool) (c usual : BoundarySleeps) : BoundarySleeps where
  betweenOperationChains :=
    c.betweenOperationChains.blend (under keep "between-operation-chains")
      usual.betweenOperationChains

theorem restores (hroom : Roomy (depth + 1) admits) (c : BoundarySleeps) :
    Restores keep admits (shape.toDatum c) (typed (depth + 2) shape.ofDatum) (c.blend keep {}) {} :=
  .section_typed hroom
    (.cons (.of_typed (c.betweenOperationChains.restores (hroom.under _)) rfl) .nil)
    (by decide) (by simp) rfl

end BoundarySleeps

namespace BoundaryDefinition

def blend (keep : List String → Bool) (c usual : BoundaryDefinition) : BoundaryDefinition where
  mapFillPercentage :=
    chosen keep "map-fill-percentage" c.mapFillPercentage usual.mapFillPercentage
  randomised := chosen keep "enable-randomness" c.randomised usual.randomised

theorem restores (hroom : Roomy depth admits) (c : BoundaryDefinition)
    (hpercentage : keep ["map-fill-percentage"] = true → GivenBack c.mapFillPercentage) :
    Restores keep admits (shape.toDatum c) (typed (depth + 1) shape.ofDatum) (c.blend keep {}) {} :=
  .section_typed hroom
    (.cons (.of_typed (.single hpercentage) rfl) <| .cons (.of_typed (.bool ..) rfl) .nil)
    (by decide) (by simp [commute_iff]) rfl

end BoundaryDefinition

namespace BoundaryDefinitions

def blend (keep : List String → Bool) (c usual : BoundaryDefinitions) : BoundaryDefinitions where
  upper := c.upper.blend (under keep "upper") usual.upper

theorem restores (hroom : Roomy (depth + 1) admits) (c : BoundaryDefinitions)
    (hpercentage :
      keep ["upper", "map-fill-percentage"] = true → GivenBack c.upper.mapFillPercentage) :
    Restores keep admits (shape.toDatum c) (typed (depth + 2) shape.ofDatum) (c.blend keep {}) {} :=
  .section_typed hroom
    (.cons (.of_typed (c.upper.restores (hroom.under _) hpercentage) rfl) .nil)
    (by decide) (by simp) rfl

end BoundaryDefinitions

namespace OperationChain

def blend (keep : List String → Bool) (c usual : OperationChain) : OperationChain where
  length := chosen keep "length" c.length usual.length
  resetAfterChain := chosen keep "reset-after-chain" c.resetAfterChain usual.resetAfterChain
  boundaries := c.boundaries.blend (under keep "boundary-definition") usual.boundaries

theorem restores (hroom : Roomy (depth + 2) admits) (c : OperationChain)
    (hpercentage : keep ["boundary-definition", "upper", "map-fill-percentage"] = true →
      GivenBack c.boundaries.upper.mapFillPercentage) :
    Restores keep admits (shape.toDatum c) (typed (depth + 3) shape.ofDatum) (c.blend keep {}) {} :=
  .section_typed hroom
    (.cons (.of_typed (.uint32_typed ..) rfl) <| .cons (.of_typed (.bool ..) rfl) <|
      .cons (.of_typed (c.boundaries.restores (hroom.under _) hpercentage) rfl) .nil)
    (by decide) (by simp [commute_iff]) rfl

end OperationChain

namespace BoundarySection

def blend (keep : List String → Bool) (c usual : BoundarySection) : BoundarySection where
  sleeps := c.sleeps.blend (under keep "sleeps") usual.sleeps
  operationChain := c.operationChain.blend (under keep "operation-chain") usual.operationChain

theorem restores (hroom : Roomy (depth + 3) admits) (c : BoundarySection)
    (hpercentage :
      keep ["operation-chain", "boundary-definition", "upper", "map-fill-percentage"] = true →
        GivenBack c.operationChain.boundaries.upper.mapFillPercentage) :
    Restores keep admits (shape.toDatum c) (typed (depth + 4) shape.ofDatum) (c.blend keep {}) {} :=
  .section_typed hroom
    (.cons (.of_typed (c.sleeps.restores (hroom.under _)) rfl) <|
      .cons (.of_typed (c.operationChain.restores (hroom.under _) hpercentage) rfl) .nil)
    (by decide) (by simp [commute_iff]) rfl

end BoundarySection

theorem LoopType.lookup_name (t : LoopType) :
    [("batch", LoopType.batch), ("boundary", LoopType.boundary)].lookup t.name = some t := by
  cases t <;> decide

namespace TestLoopSection

def blend (keep : List String → Bool) (c usual : TestLoopSection) : TestLoopSection where
  loopType := chosen keep "type" c.loopType usual.loopType
  batch := c.batch.blend (under keep "batch") usual.batch
  boundary := c.boundary.blend (under keep "boundary") usual.boundary

theorem restores (hroom : Roomy (depth + 4) admits) (c : TestLoopSection)
    (hpercentage :
      keep ["boundary", "operation-chain", "boundary-definition", "upper", "map-fill-percentage"]
          = true → GivenBack c.boundary.operationChain.boundaries.upper.mapFillPercentage) :
    Restores keep admits (shape.toDatum c) (typed (depth + 5) shape.ofDatum) (c.blend keep {}) {} :=
  .section_typed hroom
    (.cons (.of_typed (.choice (LoopType.lookup_name _)) rfl) <|
      .cons (.of_typed (c.batch.restores (hroom.under _)) rfl) <|
      .cons (.of_typed (c.boundary.restores (hroom.under _) hpercentage) rfl) .nil)
    (by decide) (by simp [commute_iff]) rfl

end TestLoopSection

namespace RunnerSection

def blend (keep : List String → Bool) (c usual : RunnerSection) : RunnerSection where
  enabled := chosen keep "enabled" c.enabled usual.enabled
  numMaps := chosen keep "num-maps" c.numMaps usual.numMaps
  numRuns := chosen keep "num-runs" c.numRuns usual.numRuns
  appendMapIndex := chosen keep "append-map-index-to-map-name" c.appendMapIndex usual.appendMapIndex
  appendClientId := chosen keep "append-client-id-to-map-name" c.appendClientId usual.appendClientId
  mapPrefix := c.mapPrefix.blend (under keep "map-prefix") usual.mapPrefix
  sleeps := c.sleeps.blend (under keep "sleeps") usual.sleeps
  testLoop := c.testLoop.blend (under keep "test-loop") usual.testLoop

end RunnerSection

namespace LoadSection

/-- The settings of every runner stand among those of the load runner, under no key of their own. -/
def blend (keep : List String → Bool) (c usual : LoadSection) : LoadSection where
  runner := c.runner.blend keep usual.runner
  numEntriesPerMap := chosen keep "num-entries-per-map" c.numEntriesPerMap usual.numEntriesPerMap
  payloadSizeBytes := chosen keep "payload-size-bytes" c.payloadSizeBytes usual.payloadSizeBytes

/-- At the level of this section there is room for 125 levels below it. -/
theorem restores (hroom : Roomy 125 admits) (c : LoadSection)
    (hpercentage :
      keep ["test-loop", "boundary", "operation-chain", "boundary-definition", "upper",
          "map-fill-percentage"] = true →
        GivenBack c.runner.testLoop.boundary.operationChain.boundaries.upper.mapFillPercentage) :
    Restores keep admits (shape.toDatum c) (direct 2 shape.ofNode) (c.blend keep {}) {} :=
  -- First the settings of every runner, read after they were typed, then the section's own.
  .flattened_direct rfl hroom
    (.cons (.of_typed (.bool ..) rfl) <| .cons (.of_typed (.uint32_typed ..) rfl) <|
      .cons (.of_typed (.uint32_typed ..) rfl) <| .cons (.of_typed (.bool ..) rfl) <|
      .cons (.of_typed (.bool ..) rfl) <|
      .cons (.of_typed (c.runner.mapPrefix.restores (hroom.under _)) rfl) <|
      .cons (.of_typed (c.runner.sleeps.restores (hroom.under _)) rfl) <|
      .cons (.of_typed (c.runner.testLoop.restores (hroom.under _) hpercentage) rfl) .nil)
    (.cons (.of_direct (.uint32_direct ..) rfl) <| .cons (.of_direct (.uint32_direct ..) rfl) .nil)
    (by decide) (by simp [commute_iff])
    (by simp [commute_iff]) rfl rfl

end LoadSection

namespace MapTests

def blend (keep : List String → Bool) (c usual : MapTests) : MapTests where
  load := c.load.blend (under keep "load") usual.load

theorem restores (hroom : Roomy 125 (under admits "load")) (c : MapTests)
    (hpercentage :
      keep ["load", "test-loop", "boundary", "operation-chain", "boundary-definition", "upper",
          "map-fill-percentage"] = true →
        GivenBack c.load.runner.testLoop.boundary.operationChain.boundaries.upper.mapFillPercentage) :
    Restores keep admits (shape.toDatum c) (direct 1 shape.ofNode) (c.blend keep {}) {} :=
  .section_direct (.cons (.of_direct (c.load.restores hroom hpercentage) rfl) .nil)
    (by decide) (by simp) rfl

end MapTests

namespace ClientSettings

def blend (keep : List String → Bool) (c usual : ClientSettings) : ClientSettings where
  clusterName := chosen keep "cluster-name" c.clusterName usual.clusterName
  members := chosen keep "members" c.members usual.members
  getMapTimeoutMs := chosen keep "get-map-timeout-ms" c.getMapTimeoutMs usual.getMapTimeoutMs
  identity := chosen keep "identity" c.identity usual.identity

theorem restores {level : Nat} (c : ClientSettings) :
    Restores keep admits (shape.toDatum c) (direct level shape.ofNode) (c.blend keep {}) {} :=
  .section_direct
    (.cons (.of_direct (.text_direct ..) rfl) <| .cons (.of_direct (.listOfText ..) rfl) <|
      .cons (.of_direct (.uint64_direct ..) rfl) <| .cons (.of_direct (.optionalText ..) rfl) .nil)
    (by decide) (by simp [commute_iff]) rfl

end ClientSettings

namespace Settings

/-- How full a map is to become: the one setting that is a floating-point number. -/
def percentage (c : Settings) : Single :=
  c.mapTests.load.runner.testLoop.boundary.operationChain.boundaries.upper.mapFillPercentage

def percentagePath : List String :=
  ["map-tests", "load", "test-loop", "boundary", "operation-chain", "boundary-definition", "upper",
    "map-fill-percentage"]

def blend (keep : List String → Bool) (c usual : Settings) : Settings where
  logLevel := chosen keep "log-level" c.logLevel usual.logLevel
  client := c.client.blend (under keep "client") usual.client
  mapTests := c.mapTests.blend (under keep "map-tests") usual.mapTests

theorem restores (hroom : Roomy 125 (under (under admits "map-tests") "load")) (c : Settings)
    (hpercentage : keep percentagePath = true → GivenBack c.percentage) :
    Restores keep admits (shape.toDatum c) (direct 0 shape.ofNode) (c.blend keep {}) {} :=
  .section_direct
    (.cons (.of_direct (.optionalText ..) rfl) <| .cons (.of_direct c.client.restores rfl) <|
      .cons (.of_direct (c.mapTests.restores hroom hpercentage) rfl) .nil)
    (by decide) (by simp [commute_iff]) rfl

end Settings

end GridBench
