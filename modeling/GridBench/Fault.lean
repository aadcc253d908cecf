/-
  GridBench.Fault

  Everything that can go wrong while maps are exercised, and the text that
  reports it.
-/

namespace GridBench

/-- A failure, by cause. -/
inductive Fault where
  /-- A setting is missing or unusable. -/
  | config (problem : String)
  /-- An operation came in the wrong phase of a life cycle. -/
  | invalidState (problem : String)
  /-- A remote call was answered by an error. -/
  | remote (problem : String)
  /-- A key that had just been written came back empty. -/
  | missingValue (key : String)
  /-- A value read back is no element. -/
  | deserialization (problem : String)
  /-- A remote call took longer than it was given. -/
  | timeout (ms : Nat) (call : String)
  /-- A remote call was given up because the run was cancelled. -/
  | cancelled
  | io (problem : String)
  | json (problem : String)
  | yaml (problem : String)
deriving DecidableEq, Repr

namespace Fault

/-- The full text of a failure. -/
def message : Fault → String
  | .config p => "Config error: " ++ p
  | .invalidState p => "Invalid state: " ++ p
  | .remote p => "Remote error: " ++ p
  | .missingValue key =>
    "value for key '" ++ key ++ "' was missing -- it might have been evicted or expired"
  | .deserialization p => "Deserialization failed: " ++ p
  | .timeout ms call => "Timed out after " ++ toString ms ++ " ms: " ++ call
  | .cancelled => "Operation cancelled"
  | .io p => "IO error: " ++ p
  | .json p => "JSON error: " ++ p
  | .yaml p => "YAML error: " ++ p

/-- The name of a failure's kind. -/
def kind : Fault → String
  | .config _ => "Config"
  | .invalidState _ => "InvalidState"
  | .remote _ => "Remote"
  | .missingValue _ => "MissingValue"
  | .deserialization _ => "Deserialization"
  | .timeout .. => "Timeout"
  | .cancelled => "Cancelled"
  | .io _ => "Io"
  | .json _ => "Json"
  | .yaml _ => "Yaml"

end Fault

end GridBench
