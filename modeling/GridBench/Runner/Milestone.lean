/-
  GridBench.Runner.Milestone

  The milestones a map runner passes, in order.
-/

namespace GridBench

/-- A milestone of a runner. -/
inductive Milestone where
  | start
  | populateConfigComplete
  | checkEnabledComplete
  | assignTestLoopComplete
  | raiseReadyComplete
  | testLoopStart
  | testLoopComplete
deriving DecidableEq, Repr, Inhabited

namespace Milestone

def name : Milestone → String
  | .start => "start"
  | .populateConfigComplete => "populateConfigComplete"
  | .checkEnabledComplete => "checkEnabledComplete"
  | .assignTestLoopComplete => "assignTestLoopComplete"
  | .raiseReadyComplete => "raiseReadyComplete"
  | .testLoopStart => "testLoopStart"
  | .testLoopComplete => "testLoopComplete"

/-- All milestones, in the order in which they are passed. -/
def all : List Milestone :=
  [.start, .populateConfigComplete, .checkEnabledComplete, .assignTestLoopComplete,
    .raiseReadyComplete, .testLoopStart, .testLoopComplete]

end Milestone

end GridBench
