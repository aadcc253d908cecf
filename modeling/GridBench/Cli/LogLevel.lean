/-
  GridBench.Cli.LogLevel

  Which records the log lets through.  A filter from the environment is a list
  of directives, each for the parts of the program whose names begin with a
  given text; without a filter, the configured level holds for all.
-/
import GridBench.Journal
import GridBench.Text.White

namespace GridBench

/-- A level: records at least as grave as a severity are let through, or none at all. -/
structure LogLevel where
  most : Option Severity
deriving DecidableEq, Repr

namespace LogLevel

/-- Lets everything through. -/
def everything : LogLevel := ⟨some .trace⟩

/-- Lets errors through. -/
def errorsOnly : LogLevel := ⟨some .error⟩

/-- Whether a record is let through. -/
def allows (l : LogLevel) (r : Record) : Bool := l.most.any fun m => r.severity.rank ≤ m.rank

def name (l : LogLevel) : String := l.most.elim "OFF" Severity.name

/-- The level with the given name, in any mixture of cases. -/
def ofName? (s : String) : Option LogLevel :=
  if s.toLower = "off" then some ⟨none⟩ else (Severity.ofName? s).map fun m => ⟨some m⟩

/-- The level to apply once the configuration is known: none if there is a filter, else the
    configured one, else errors only. -/
def resolve (filter configured : Option String) : Option LogLevel × List Record :=
  match filter, configured with
  | some _, _ => (none, [])
  | none, none => (some errorsOnly, [])
  | none, some level =>
    match ofName? (Text.trim level) with
    | some l => (some l, [])
    | none =>
      (some errorsOnly,
        [⟨.warn, .program, "Ignoring invalid log-level '" ++ level ++ "', logging errors only"⟩])

end LogLevel

/-- What is let through of the parts of the program whose names begin with a given text. -/
structure LogDirective where
  target : String
  level : LogLevel
deriving DecidableEq, Repr

/-- A filter for log records: its directives, and a text that messages must hold. -/
structure LogFilter where
  directives : List LogDirective
  needle : String := ""
deriving DecidableEq, Repr

namespace LogFilter

/-- Lets everything through. -/
def everything : LogFilter := ⟨[⟨"", .everything⟩], ""⟩

/-- Reads one directive: a level, a target, or both around an equals sign. -/
def directive? (s : String) : Option LogDirective :=
  match s.splitOn "=" with
  | [a] => some (match LogLevel.ofName? a with
    | some l => ⟨"", l⟩
    | none => ⟨a, .everything⟩)
  | [a, b] =>
    if (Text.trim b).isEmpty then some ⟨a, .everything⟩
    else (LogLevel.ofName? (Text.trim b)).map fun l => ⟨a, l⟩
  | _ => none

/-- Reads directives between commas; those that cannot be read are passed over. -/
def readDirectives (s : String) : List LogDirective :=
  (s.splitOn ",").filterMap fun d =>
    let d := Text.trim d
    if d.isEmpty then none else directive? d

/-- Reads a filter: directives, and optionally a text behind a slash. -/
def ofString (s : String) : LogFilter :=
  let (ds, needle) := match s.splitOn "/" with
    | [ds] => (readDirectives ds, "")
    | [ds, needle] => (readDirectives ds, needle)
    | _ => ([], "")
  ⟨if ds.isEmpty then [⟨"", .errorsOnly⟩] else ds, needle⟩

/-- The directive for a part of the program: the one with the longest target. -/
def directiveFor? (f : LogFilter) (target : String) : Option LogDirective :=
  (f.directives.filter fun d => d.target.toList.isPrefixOf target.toList).foldl
    (fun best d => match best with
      | none => some d
      | some b => if b.target.length ≤ d.target.length then some d else some b)
    none

/-- Whether a record is let through. -/
def allows (f : LogFilter) (r : Record) : Bool :=
  ((f.directiveFor? r.speaker.target).any fun d => d.level.allows r)
    && (f.needle.isEmpty || (r.message.splitOn f.needle).length ≠ 1)

end LogFilter

end GridBench
