/-
  GridBench.Settings.Client

  Client settings that cannot be used are replaced by the defaults, with one
  warning for each replacement.
-/
import GridBench.Settings.Basic
import GridBench.Journal
import GridBench.Text.Quoted
import GridBench.Text.White

namespace GridBench.ClientSettings

/-- A replaced setting's warning. -/
def replaced (what instead : String) : Record :=
  ⟨.warn, .configuration, "client." ++ what ++ " -- using default " ++ instead ++ " instead"⟩

/-- The cluster name, or the default one if it is blank. -/
def sanitizedName (c : ClientSettings) : String × List Record :=
  let usual : ClientSettings := {}
  if (Text.trim c.clusterName).isEmpty then
    (usual.clusterName, [replaced "cluster-name is empty" ("'" ++ usual.clusterName ++ "'")])
  else (c.clusterName, [])

/-- The members, or the default ones if there are none. -/
def sanitizedMembers (c : ClientSettings) : List String × List Record :=
  let usual : ClientSettings := {}
  if c.members.isEmpty then
    (usual.members, [replaced "members is empty" (Text.quoteList usual.members)])
  else (c.members, [])

/-- The time to acquire a map, or the default one if it is zero. -/
def sanitizedTimeout (c : ClientSettings) : UInt64 × List Record :=
  let usual : ClientSettings := {}
  if c.getMapTimeoutMs = 0 then
    (usual.getMapTimeoutMs,
      [replaced "get-map-timeout-ms is 0" (toString usual.getMapTimeoutMs.toNat)])
  else (c.getMapTimeoutMs, [])

/-- The settings with every unusable one replaced, and the warnings. -/
def sanitized (c : ClientSettings) : ClientSettings × List Record :=
  let (name, w₁) := c.sanitizedName
  let (members, w₂) := c.sanitizedMembers
  let (timeout, w₃) := c.sanitizedTimeout
  ({ c with clusterName := name, members := members, getMapTimeoutMs := timeout }, w₁ ++ w₂ ++ w₃)

end GridBench.ClientSettings
