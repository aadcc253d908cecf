/-
  GridBench.Status.Progress

  The progress of one run: a table of named values that anyone may read at any time.
-/
import Std.Data.ExtTreeMap
import GridBench.Json.Basic

namespace GridBench

/-- The progress of a run. -/
abbrev Progress := Std.ExtTreeMap String Json compare

/-- Names of the values that every run publishes. -/
def numMapsKey : String := "numMaps"
def numRunsKey : String := "numRuns"
def totalRunsKey : String := "totalRuns"
def runnerFinishedKey : String := "runnerFinished"

namespace Progress

/-- The table as the members of an object. -/
def snapshot (p : Progress) : Members := p.toList

/-- Whether the run has been marked as finished. -/
def isFinished (p : Progress) : Bool :=
  match p[runnerFinishedKey]? with
  | some (.bool true) => true
  | _ => false

end Progress

/-- A fact to be written into the table, or the request to finish it. -/
inductive StatusUpdate where
  | update (key : String) (value : Json)
  | stop

end GridBench
