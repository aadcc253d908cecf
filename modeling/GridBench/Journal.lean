/-
  GridBench.Journal

  Log records as data: a severity, the part of the program that speaks, and
  the message.
-/

namespace GridBench

/-- How grave a log record is. -/
inductive Severity where
  | error
  | warn
  | info
  | debug
  | trace
deriving DecidableEq, Repr

namespace Severity

/-- Position on the scale from the gravest severity, 1, to the most detailed one, 5. -/
def rank : Severity → Nat
  | .error => 1
  | .warn => 2
  | .info => 3
  | .debug => 4
  | .trace => 5

/-- The name written in front of a record. -/
def name : Severity → String
  | .error => "ERROR"
  | .warn => "WARN"
  | .info => "INFO"
  | .debug => "DEBUG"
  | .trace => "TRACE"

def all : List Severity := [.error, .warn, .info, .debug, .trace]

/-- The severity with the given name, in any mixture of cases. -/
def ofName? (s : String) : Option Severity :=
  all.find? fun l => l.name.toLower = s.toLower

end Severity

/-- The part of the program a record comes from. -/
inductive Speaker where
  | program
  | configuration
  | identity
  | gatherer
  | readiness
  | registry
  | testLoop
  | loadRunner
  | mapTester
deriving DecidableEq, Repr

namespace Speaker

/-- The name under which the part logs, as log filters and log lines show it. -/
def target : Speaker → String
  | .program => "gridload"
  | .configuration => "gridload::config::global"
  | .identity => "gridload::id"
  | .gatherer => "gridload::status::gatherer"
  | .readiness => "gridload::status::readiness"
  | .registry => "gridload::status::registry"
  | .testLoop => "gridload::runner::test_loop"
  | .loadRunner => "gridload::runner::load_runner"
  | .mapTester => "gridload::runner::map_tester"

end Speaker

/-- One log record. -/
structure Record where
  severity : Severity
  speaker : Speaker
  message : String
deriving DecidableEq, Repr

namespace Record

/-- The record as severity and message. -/
def line (r : Record) : String := r.severity.name ++ " " ++ r.message

end Record

/-- Log records in the order in which they were made. -/
abbrev Journal := Array Record

namespace Journal

/-- The lines of the records at least as grave as the given severity. -/
def lines (most : Severity) (j : Journal) : List String :=
  (j.toList.filter fun r => r.severity.rank ≤ most.rank).map Record.line

end Journal

end GridBench
