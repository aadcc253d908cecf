/-
  GridBench.Cli.Summary

  What is printed about a finished run: the rounds completed and failed, summed
  up over the partitions.
-/
import GridBench.Status.Registry
import GridBench.Status.Progress

namespace GridBench

/-- A colour of printed text. -/
inductive Colour where
  | red
  | green
  | yellow
  | cyan
deriving DecidableEq, Repr

namespace Colour

/-- The number of a colour in a control sequence. -/
def code : Colour → Nat
  | .red => 31
  | .green => 32
  | .yellow => 33
  | .cyan => 36

/-- A text in a colour, if colours are printed at all. -/
def paint (c : Colour) (colours : Bool) (s : String) : String :=
  if colours then "\x1b[" ++ toString c.code ++ "m" ++ s ++ "\x1b[0m" else s

end Colour

/-- What the names of all partitions' counts begin with. -/
def partitionMark : String := "partition-"

/-- The sum of the counts of all partitions whose names end in the given text. -/
def sumCounts (progress : Members) (ending : String) : Nat :=
  (progress.filterMap fun (k, v) =>
    if partitionMark.toList.isPrefixOf k.toList && ending.toList.isSuffixOf k.toList then v.natural?
    else none).foldl (· + ·) 0

/-- The ending of the names of completed counts. -/
def completedEnding : String := ".completedRuns"

/-- The ending of the names of failed counts. -/
def failedEnding : String := ".failedRuns"

/-- The summary of one run, line by line. -/
def runSummary (colours : Bool) (kind : LoopKind) (source runId : String) (progress : Members) :
    List String :=
  let total := ((progress.lookup totalRunsKey).bind Json.natural?).getD 0
  let completed := sumCounts progress completedEnding
  let failed := sumCounts progress failedEnding
  let finished := match progress.lookup runnerFinishedKey with
    | some (.bool true) => true
    | _ => false
  [Colour.green.paint colours "Finished:" ++ " " ++ kind.name ++ "/" ++ source ++ " (" ++ runId ++ ")",
    "  runs completed: " ++ Colour.green.paint colours (toString completed) ++ "/"
      ++ toString total]
  ++ (if 0 < failed then
      ["  runs failed:    " ++ Colour.red.paint colours (toString failed)] else [])
  ++ (if finished then [] else ["  " ++ Colour.yellow.paint colours "runner did not finish"])

end GridBench
