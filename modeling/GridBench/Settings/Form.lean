/-
  GridBench.Settings.Form

  How the settings stand in a configuration file: the key of each setting, its
  shape, and its place in the settings.
-/
import GridBench.Form.Section
import GridBench.Settings.Basic

namespace GridBench

open GridBench.Form

namespace SleepPolicy

def fields : List (SectionField SleepPolicy) := [
  .of "enabled" .bool (·.enabled) fun v s => { s with enabled := v },
  .of "duration-ms" .uint64 (·.durationMs) fun v s => { s with durationMs := v },
  .of "enable-randomness" .bool (·.randomised) fun v s => { s with randomised := v }]

def shape : Shape SleepPolicy := .section "SleepConfig" fields {}

end SleepPolicy

namespace LoopType

def shape : Shape LoopType :=
  .choice [("batch", .batch), ("boundary", .boundary)] LoopType.name

end LoopType

namespace MapPrefix

def fields : List (SectionField MapPrefix) := [
  .of "enabled" .bool (·.enabled) fun v s => { s with enabled := v },
  .of "prefix" .text (·.text) fun v s => { s with text := v }]

def shape : Shape MapPrefix := .section "MapPrefixSection" fields {}

end MapPrefix

namespace RunnerSleeps

def fields : List (SectionField RunnerSleeps) := [
  .of "between-runs" SleepPolicy.shape (·.betweenRuns) fun v s => { s with betweenRuns := v }]

def shape : Shape RunnerSleeps := .section "RunnerSleeps" fields {}

end RunnerSleeps

namespace BatchSleeps

def fields : List (SectionField BatchSleeps) := [
  .of "between-action-batches" SleepPolicy.shape (·.betweenActionBatches)
    fun v s => { s with betweenActionBatches := v }]

def shape : Shape BatchSleeps := .section "BatchSleeps" fields {}

end BatchSleeps

namespace BatchSection

def fields : List (SectionField BatchSection) := [
  .of "sleeps" BatchSleeps.shape (·.sleeps) fun v s => { s with sleeps := v }]

def shape : Shape BatchSection := .section "BatchSection" fields {}

end BatchSection

namespace BoundarySleeps

def fields : List (SectionField BoundarySleeps) := [
  .of "between-operation-chains" SleepPolicy.shape (·.betweenOperationChains)
    fun v s => { s with betweenOperationChains := v }]

def shape : Shape BoundarySleeps := .section "BoundarySleeps" fields {}

end BoundarySleeps

namespace BoundaryDefinition

def fields : List (SectionField BoundaryDefinition) := [
  .of "map-fill-percentage" .single (·.mapFillPercentage)
    fun v s => { s with mapFillPercentage := v },
  .of "enable-randomness" .bool (·.randomised) fun v s => { s with randomised := v }]

def shape : Shape BoundaryDefinition := .section "BoundaryDefinition" fields {}

end BoundaryDefinition

namespace BoundaryDefinitions

def fields : List (SectionField BoundaryDefinitions) := [
  .of "upper" BoundaryDefinition.shape (·.upper) fun v s => { s with upper := v }]

def shape : Shape BoundaryDefinitions := .section "BoundaryDefinitionSection" fields {}

end BoundaryDefinitions

namespace OperationChain

def fields : List (SectionField OperationChain) := [
  .of "length" .uint32 (·.length) fun v s => { s with length := v },
  .of "reset-after-chain" .bool (·.resetAfterChain) fun v s => { s with resetAfterChain := v },
  .of "boundary-definition" BoundaryDefinitions.shape (·.boundaries)
    fun v s => { s with boundaries := v }]

def shape : Shape OperationChain := .section "OperationChainSection" fields {}

end OperationChain

namespace BoundarySection

def fields : List (SectionField BoundarySection) := [
  .of "sleeps" BoundarySleeps.shape (·.sleeps) fun v s => { s with sleeps := v },
  .of "operation-chain" OperationChain.shape (·.operationChain)
    fun v s => { s with operationChain := v }]

def shape : Shape BoundarySection := .section "BoundarySection" fields {}

end BoundarySection

namespace TestLoopSection

def fields : List (SectionField TestLoopSection) := [
  .of "type" LoopType.shape (·.loopType) fun v s => { s with loopType := v },
  .of "batch" BatchSection.shape (·.batch) fun v s => { s with batch := v },
  .of "boundary" BoundarySection.shape (·.boundary) fun v s => { s with boundary := v }]

def shape : Shape TestLoopSection := .section "TestLoopSection" fields {}

end TestLoopSection

namespace RunnerSection

def fields : List (SectionField RunnerSection) := [
  .of "enabled" .bool (·.enabled) fun v s => { s with enabled := v },
  .of "num-maps" .uint32 (·.numMaps) fun v s => { s with numMaps := v },
  .of "num-runs" .uint32 (·.numRuns) fun v s => { s with numRuns := v },
  .of "append-map-index-to-map-name" .bool (·.appendMapIndex)
    fun v s => { s with appendMapIndex := v },
  .of "append-client-id-to-map-name" .bool (·.appendClientId)
    fun v s => { s with appendClientId := v },
  .of "map-prefix" MapPrefix.shape (·.mapPrefix) fun v s => { s with mapPrefix := v },
  .of "sleeps" RunnerSleeps.shape (·.sleeps) fun v s => { s with sleeps := v },
  .of "test-loop" TestLoopSection.shape (·.testLoop) fun v s => { s with testLoop := v }]

def shape : Shape RunnerSection := .section "RunnerSection" fields {}

end RunnerSection

namespace LoadSection

def fields : List (SectionField LoadSection) := [
  .of "num-entries-per-map" .uint32 (·.numEntriesPerMap)
    fun v s => { s with numEntriesPerMap := v },
  .of "payload-size-bytes" .uint32 (·.payloadSizeBytes)
    fun v s => { s with payloadSizeBytes := v }]

/-- The settings of every runner stand between those of the load runner. -/
def flattened : Flattened LoadSection RunnerSection where
  name := "LoadRunnerSection"
  own := fields
  inner := RunnerSection.fields
  innerStart := {}
  get := (·.runner)
  set := fun v s => { s with runner := v }
  start := {}

def shape : Shape LoadSection := flattened.shape

end LoadSection

namespace MapTests

def fields : List (SectionField MapTests) := [
  .of "load" LoadSection.shape (·.load) fun v s => { s with load := v }]

def shape : Shape MapTests := .section "MapTestsConfig" fields {}

end MapTests

namespace ClientSettings

def fields : List (SectionField ClientSettings) := [
  .of "cluster-name" .text (·.clusterName) fun v s => { s with clusterName := v },
  .of "members" (.list .text) (·.members) fun v s => { s with members := v },
  .of "get-map-timeout-ms" .uint64 (·.getMapTimeoutMs) fun v s => { s with getMapTimeoutMs := v },
  .of "identity" .optionalText (·.identity) fun v s => { s with identity := v }]

def shape : Shape ClientSettings := .section "ClientConfig" fields {}

end ClientSettings

namespace Settings

def fields : List (SectionField Settings) := [
  .of "log-level" .optionalText (·.logLevel) fun v s => { s with logLevel := v },
  .of "client" ClientSettings.shape (·.client) fun v s => { s with client := v },
  .of "map-tests" MapTests.shape (·.mapTests) fun v s => { s with mapTests := v }]

def shape : Shape Settings := .section "GlobalConfig" fields {}

end Settings

end GridBench
