/-
  GridBench.Naming

  Names of maps and storage keys.  Keys hold the client's identity and the
  partition, so that two clients, or two partitions of one client, keep apart.
-/
import GridBench.Identity
import GridBench.Settings.Resolve

namespace GridBench

/-- The name of a partition's map: an optional prefix, the base name, and optionally the
    partition and the client's identity behind dashes. -/
def mapName (plan : RunPlan) (partition : Nat) (client : ClientIdentity) : String :=
  (if plan.usePrefix then plan.mapPrefix else "") ++ plan.mapBaseName
    ++ (if plan.appendMapIndex then "-" ++ toString partition else "")
    ++ (if plan.appendClientId then "-" ++ client.text else "")

/-- The key under which a client stores one element of a partition. -/
def storageKey (client : ClientIdentity) (partition : Nat) (elementId : String) : String :=
  client.text ++ "-" ++ toString partition ++ "-" ++ elementId

/-- The status key of a partition's completed iterations. -/
def completedKey (partition : Nat) : String :=
  "partition-" ++ toString partition ++ ".completedRuns"

/-- The status key of a partition's failed iterations. -/
def failedKey (partition : Nat) : String :=
  "partition-" ++ toString partition ++ ".failedRuns"

end GridBench
