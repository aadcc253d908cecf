/-
  GridBench.Cli.Arguments

  The command line.  Options stand before or behind the command word; those
  that every command has may stand at both places, and then the one behind the
  word counts.  The value of an option is attached to it or is the next
  argument, which must not look like an option.
-/

namespace GridBench

/-- A command of the program. -/
inductive CommandWord where
  | run
  | showConfig
deriving DecidableEq, Repr

namespace CommandWord

def text : CommandWord → String
  | .run => "run"
  | .showConfig => "show-config"

def all : List CommandWord := [.run, .showConfig]

/-- The command with the given word. -/
def ofText? (s : String) : Option CommandWord := all.find? fun w => w.text = s

end CommandWord

/-- An option of the command line. -/
inductive CliOption where
  | config
  | verbose
  | logStderr
  | clientId
  | help
  | version
deriving DecidableEq, Repr

namespace CliOption

/-- The name behind two dashes. -/
def long : CliOption → String
  | .config => "config"
  | .verbose => "verbose"
  | .logStderr => "log-stderr"
  | .clientId => "client-id"
  | .help => "help"
  | .version => "version"

/-- The letter behind one dash. -/
def short? : CliOption → Option Char
  | .config => some 'c'
  | .verbose => some 'v'
  | .help => some 'h'
  | .version => some 'V'
  | _ => none

/-- Whether the option has a value. -/
def takesValue : CliOption → Bool
  | .config => true
  | .clientId => true
  | _ => false

/-- The options that are known behind a command word, or before it. -/
def known : Option CommandWord → List CliOption
  | none => [.config, .verbose, .logStderr, .help, .version]
  | some .run => [.config, .verbose, .logStderr, .help, .clientId]
  | some .showConfig => [.config, .verbose, .logStderr, .help]

end CliOption

/-- Why the arguments are not carried out. -/
inductive UsageError where
  /-- There are none. -/
  | noArguments
  /-- There are options, but no command. -/
  | noCommand
  | unknownCommand
  | unknownArgument
  /-- An option stands twice at one place. -/
  | repeated
  | missingValue
  | unexpectedValue
  | helpWanted
  | versionWanted
deriving DecidableEq, Repr

namespace UsageError

/-- The exit code of the program. -/
def exitCode : UsageError → Nat
  | .helpWanted => 0
  | .versionWanted => 0
  | _ => 2

/-- The error in words. -/
def message : UsageError → String
  | .noArguments => "no command given"
  | .noCommand => "a command is required"
  | .unknownCommand => "unknown command"
  | .unknownArgument => "unexpected argument"
  | .repeated => "an option cannot be used twice"
  | .missingValue => "an option lacks its value"
  | .unexpectedValue => "an option takes no value"
  | .helpWanted => ""
  | .versionWanted => ""

end UsageError

/-- The options given at one place. -/
structure GivenOptions where
  config : Option String := none
  verbose : Bool := false
  logStderr : Bool := false
  clientId : Option String := none
deriving DecidableEq, Repr, Inhabited

namespace GivenOptions

/-- Accepts an option without a value. -/
def acceptFlag (g : GivenOptions) : CliOption → Except UsageError GivenOptions
  | .verbose => if g.verbose then .error .repeated else .ok { g with verbose := true }
  | .logStderr => if g.logStderr then .error .repeated else .ok { g with logStderr := true }
  | .help => .error .helpWanted
  | .version => .error .versionWanted
  | _ => .error .missingValue

/-- Accepts an option with its value.  The path of the configuration must not be empty. -/
def acceptValue (g : GivenOptions) (o : CliOption) (v : String) : Except UsageError GivenOptions :=
  match o with
  | .config =>
    if g.config.isSome then .error .repeated
    else if v.isEmpty then .error .missingValue
    else .ok { g with config := some v }
  | .clientId =>
    if g.clientId.isSome then .error .repeated else .ok { g with clientId := some v }
  | _ => .error .unexpectedValue

/-- The options before the command word, with those behind it put over them. -/
def overlay (outer inner : GivenOptions) : GivenOptions where
  config := inner.config <|> outer.config
  verbose := inner.verbose || outer.verbose
  logStderr := inner.logStderr || outer.logStderr
  clientId := inner.clientId <|> outer.clientId

end GivenOptions

/-- An option that is not accepted yet. -/
inductive PendingOption where
  | nothing
  /-- Its value is to be the next argument. -/
  | awaiting (o : CliOption)
  /-- Its value has been read. -/
  | complete (o : CliOption) (value : String)
deriving DecidableEq, Repr

/-- How far the arguments at one place have been read. -/
structure ArgumentState where
  given : GivenOptions := {}
  pending : PendingOption := .nothing
deriving DecidableEq, Repr

namespace ArgumentState

/-- Accepts the option that is pending. -/
def settle (s : ArgumentState) : Except UsageError GivenOptions :=
  match s.pending with
  | .nothing => .ok s.given
  | .awaiting _ => .error .missingValue
  | .complete o v => s.given.acceptValue o v

/-- Reads an option without a value. -/
def flag (s : ArgumentState) (o : CliOption) : Except UsageError ArgumentState := do
  let g ← s.settle
  let g ← g.acceptFlag o
  pure { given := g }

/-- Reads an option with the value attached to it. -/
def attached (s : ArgumentState) (o : CliOption) (v : String) : Except UsageError ArgumentState := do
  let g ← s.settle
  let g ← g.acceptValue o v
  pure { given := g }

/-- Reads an option whose value is to follow. -/
def await (s : ArgumentState) (o : CliOption) : Except UsageError ArgumentState := do
  let g ← s.settle
  pure { given := g, pending := .awaiting o }

/-- Reads an option by its name, with what is attached behind an equals sign. -/
def long (place : Option CommandWord) (s : ArgumentState) (name : String) (value : Option String) :
    Except UsageError ArgumentState :=
  match (CliOption.known place).find? fun o => o.long = name with
  | none => .error .unknownArgument
  | some o =>
    if o.takesValue then
      match value with
      | some v => s.attached o v
      | none => s.await o
    else
      match value with
      | some _ => .error .unexpectedValue
      | none => s.flag o

/-- Reads options by their letters; what follows the letter of an option with a value is that
    value, an equals sign in between apart. -/
def shorts (place : Option CommandWord) : List Char → ArgumentState →
    Except UsageError ArgumentState
  | [], s => .ok s
  | c :: cs, s =>
    match (CliOption.known place).find? fun o => o.short? = some c with
    | none => .error .unknownArgument
    | some o =>
      if o.takesValue then
        match cs with
        | [] => s.await o
        | '=' :: v => s.attached o (String.ofList v)
        | v => s.attached o (String.ofList v)
      else
        match s.flag o with
        | .ok s => shorts place cs s
        | .error e => .error e

/-- The error for an argument that has no place. -/
def stray : Option CommandWord → UsageError
  | none => .unknownCommand
  | some _ => .unknownArgument

/-- The word with which help is asked for. -/
def helpWord : String := "help"

/-- The error for an argument behind two dashes. -/
def strayBehindDashes (place : Option CommandWord) (a : String) : UsageError :=
  if place.isNone && ((CommandWord.ofText? a).isSome || a = helpWord) then .unknownArgument
  else stray place

/-- What help about the given words comes to. -/
def help : List String → UsageError
  | [] => .helpWanted
  | [a] =>
    if (CommandWord.ofText? a).isSome || a = helpWord then .helpWanted else .unknownCommand
  | _ => .unknownCommand

/-- Splits the text behind two dashes at the first equals sign. -/
def splitLong (cs : List Char) : String × Option String :=
  let name := cs.takeWhile (· ≠ '=')
  (String.ofList name,
    match cs.drop name.length with
    | [] => none
    | _ :: v => some (String.ofList v))

/-- Reads one argument that is no command word. -/
def argument (place : Option CommandWord) (a : String) (s : ArgumentState) :
    Except UsageError ArgumentState :=
  match a.toList, s.pending with
  | '-' :: '-' :: cs, _ =>
    let (name, value) := splitLong cs
    long place s name value
  | '-' :: c :: cs, _ => shorts place (c :: cs) s
  | _, .awaiting o => .ok { s with pending := .complete o a }
  | _, _ => .error (stray place)

/-- Whether the next argument is the value of an option, unless it looks like one itself. -/
def awaits (s : ArgumentState) : Bool :=
  match s.pending with
  | .awaiting _ => true
  | _ => false

/-- The command word an argument is, where one can stand. -/
def commandWord? (place : Option CommandWord) (s : ArgumentState) (a : String) :
    Option CommandWord :=
  if place.isNone && !s.awaits then CommandWord.ofText? a else none

/-- Reads the arguments at one place, up to a command word. -/
def arguments (place : Option CommandWord) : List String → ArgumentState →
    Except UsageError (ArgumentState × Option (CommandWord × List String))
  | [], s => .ok (s, none)
  | a :: rest, s =>
    match commandWord? place s a with
    | some w => .ok (s, some (w, rest))
    | none =>
      if place.isNone && !s.awaits && a = helpWord then .error (help rest)
      else if a = "--" then
        match rest with
        | [] => .ok (s, none)
        | b :: _ => .error (strayBehindDashes place b)
      else
        match argument place a s with
        | .ok s => arguments place rest s
        | .error e => .error e

end ArgumentState

/-- What the program is to do. -/
inductive Command where
  | run (clientId : Option String)
  | showConfig
deriving DecidableEq, Repr

/-- A command line that can be carried out. -/
structure Invocation where
  config : Option String := none
  verbose : Bool := false
  logStderr : Bool := false
  command : Command
deriving DecidableEq, Repr

namespace Invocation

/-- The invocation for a command word and all options given. -/
def ofOptions (w : CommandWord) (g : GivenOptions) : Invocation where
  config := g.config
  verbose := g.verbose
  logStderr := g.logStderr
  command := match w with
    | .run => .run g.clientId
    | .showConfig => .showConfig

/-- Reads the arguments behind the program's name. -/
def ofArguments (args : List String) : Except UsageError Invocation := do
  let (outer, command) ← ArgumentState.arguments none args {}
  match command with
  | none =>
    let given ← outer.settle
    throw (if given = {} then .noArguments else .noCommand)
  | some (w, rest) =>
    let (inner, _) ← ArgumentState.arguments (some w) rest {}
    let inner ← inner.settle
    let outer ← outer.settle
    pure (ofOptions w (outer.overlay inner))

end Invocation

end GridBench
