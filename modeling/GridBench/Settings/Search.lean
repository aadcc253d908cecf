/-
  GridBench.Settings.Search

  Where the configuration comes from.  A file named on the command line is
  used or refused; otherwise the project's file, the user's file and the
  defaults are tried in this order.
-/
import GridBench.Settings.Form
import GridBench.Yaml.Reader
import GridBench.Yaml.Printer
import GridBench.Journal
import GridBench.Fault

namespace GridBench

open GridBench.Form

namespace Form

/-- A text that is no document is refused as such. -/
def Refusal.ofTextError : Yaml.TextError → Refusal
  | .malformed => .malformed
  | .control position => .control position

/-- Reads a value of a shape from YAML text. -/
def Shape.ofYaml (s : Shape α) (start : α) (text : String) : Except Refusal α :=
  match Yaml.Document.ofString text with
  | .error e => .error (.ofTextError e)
  | .ok d => s.ofDocument start d

end Form

/-- What there is under a file's name. -/
inductive FileState where
  | missing
  /-- Something is there, but it cannot be read. -/
  | unreadable (cause : String)
  | bytes (content : ByteArray)

namespace FileState

/-- Whether there is anything. -/
def isPresent : FileState → Bool
  | .missing => false
  | _ => true

end FileState

/-- Why a configuration file could not be loaded. -/
inductive LoadError where
  | unreadable (cause : String)
  | refused (cause : Refusal)

namespace LoadError

/-- The failure as a chain of causes, the outermost first. -/
def chain : LoadError → List String
  | .unreadable cause => ["Failed to read config file", cause]
  | .refused cause => ["Failed to parse config file", cause.message]

end LoadError

namespace Settings

/-- Reads settings from YAML text. -/
def ofYaml (text : String) : Except Refusal Settings := shape.ofYaml {} text

/-- Writes settings as a configuration file. -/
def toYaml (s : Settings) : String := Yaml.render (shape.toDatum s)

/-- Loads settings from a file. -/
def ofFile : FileState → Except LoadError Settings
  | .missing => .error (.unreadable "No such file or directory (os error 2)")
  | .unreadable cause => .error (.unreadable cause)
  | .bytes content =>
    match String.fromUTF8? content with
    | none => .error (.unreadable "stream did not contain valid UTF-8")
    | some text => (ofYaml text).mapError .refused

end Settings

/-- The files a configuration may come from. -/
structure ConfigFiles where
  /-- The file named on the command line. -/
  explicit : Option (String × FileState) := none
  /-- The project's file. -/
  project : FileState := .missing
  /-- The user's file, unless there is no place for one. -/
  user : Option (String × FileState) := none

namespace ConfigFiles

/-- Name of the project's file. -/
def projectName : String := ".gridload.yml"

def info (message : String) : Record := ⟨.info, .configuration, message⟩

/-- Tries one file: nothing if it is missing, else its settings or the warning about it. -/
def attempt (name : String) (file : FileState) : Option (Settings × Record) × List Record :=
  if file.isPresent then
    match Settings.ofFile file with
    | .ok s => (some (s, info ("Loaded config from " ++ name)), [])
    | .error e =>
      (none, [⟨.warn, .configuration,
        "Failed to load " ++ name ++ ": " ++ e.chain.headD ""⟩])
  else (none, [])

/-- The settings and the log records, or the chain of causes why there are none. -/
def load (files : ConfigFiles) : Except (List String) Settings × List Record :=
  match files.explicit with
  | some (name, file) =>
    ((Settings.ofFile file).mapError fun e => ("Failed to load config from " ++ name) :: e.chain, [])
  | none =>
    match attempt projectName files.project with
    | (some (s, chosen), warnings) => (.ok s, warnings ++ [chosen])
    | (none, warnings) =>
      let (found, more) := match files.user with
        | some (name, file) => attempt name file
        | none => (none, [])
      match found with
      | some (s, chosen) => (.ok s, warnings ++ more ++ [chosen])
      | none => (.ok {}, warnings ++ more ++ [info "No config file found, using defaults"])

end ConfigFiles

end GridBench
