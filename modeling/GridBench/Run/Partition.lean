/-
  GridBench.Run.Partition

  What the worker of one partition does: it acquires the partition's map, goes
  through the planned rounds, and releases the map whatever happened.  A round
  ingests what is missing, reads everything back, and removes a part of it.  A
  round that fails is counted and the next one begins; only an element whose
  identifier cannot be computed ends the worker early.
-/
import GridBench.RunId
import GridBench.Run.Proc
import GridBench.Naming
import GridBench.Element

namespace GridBench

/-- Everything one run of a test loop is told. -/
structure LoopConfig where
  runId : RunId
  source : String
  plan : RunPlan
  /-- Accepts a value that was read back, or says what is wrong with it. -/
  check : Json → Except Fault Unit
  elements : List Element
  client : ClientIdentity
  /-- How long acquiring a map may take. -/
  getMapTimeoutMs : Nat

/-- Why an action of a round comes to an end early. -/
inductive Trouble where
  | failed (cause : Fault)
  /-- The worker itself ends, with the given message. -/
  | crashed (message : String)
deriving DecidableEq, Repr

/-- A part of a worker's program that may come to an end early. -/
abbrev Attempt := ExceptT Trouble Proc

namespace Attempt

/-- Sends a request; a failure ends the action. -/
def ask (r : Request) : Attempt r.Answer :=
  ExceptT.mk ((Proc.lift (.ask r none)).bind fun
    | .ok a => .done (.ok a)
    | .error f => .done (.error (.failed f)))

/-- Sends a call on a map. -/
def call (h : Handle) (c : MapCall) : Attempt c.Answer := ask (.call h c)

/-- Goes on with a value, unless there is a failure instead. -/
def ofExcept {α : Type} : Except Fault α → Attempt α
  | .ok a => pure a
  | .error f => throw (.failed f)

end Attempt

/-- The actions of a round. -/
inductive Action where
  | ingest
  | read
  | remove
deriving DecidableEq, Repr

namespace Action

/-- An action as its failure reports it. -/
def describe : Action → String
  | .ingest => "ingest data into"
  | .read => "read data from"
  | .remove => "delete data from"

end Action

/-- How a round ends. -/
inductive RoundEnd where
  | completed
  | failed (action : Action) (cause : Fault)
  | crashed (message : String)
deriving DecidableEq, Repr

/-- Writes a log record of the test loop. -/
def say (severity : Severity) (message : String) : Proc Unit :=
  .lift (.log ⟨severity, .testLoop, message⟩)

/-- Pauses once. -/
def rest (s : SleepPolicy) : Proc Unit :=
  if s.enabled then do
    let ms : Nat ← .lift (.pick s.duration)
    say .trace ("sleeping for " ++ toString ms ++ " milliseconds")
    .lift (.pause ms)
  else pure ()

/-- One partition of a run. -/
structure Partition where
  config : LoopConfig
  number : Nat

namespace Partition

variable (p : Partition)

/-- The name of the partition's map. -/
def mapName : String := GridBench.mapName p.config.plan p.number p.config.client

/-- The key of an element. -/
def key (e : Element) : Except String String :=
  e.id.map (storageKey p.config.client p.number)

/-- The partition as records about its map name it. -/
def onMap : String := "map '" ++ p.mapName ++ "' in partition " ++ toString p.number

/-- The members of a warning about the partition. -/
def members (more : List (String × String)) : String :=
  String.join ((([("source", p.config.source), ("map", p.mapName),
    ("partition", toString p.number)] ++ more).map fun (n, v) => " " ++ n ++ "=" ++ v))

/-- Writes a log record that starts with the run's source. -/
def tell (severity : Severity) (message : String) : Proc Unit :=
  say severity (p.config.source ++ ": " ++ message)

/-! ## Actions -/

/-- The key of an element, without which the worker cannot go on. -/
def keyOf (e : Element) : Attempt String :=
  match p.key e with
  | .ok k => pure k
  | .error message => throw (.crashed message)

/-- Writes every element whose key is not present, and counts them. -/
def ingest (h : Handle) : List Element → Nat → Attempt Nat
  | [], stored => do
    say .trace ("stored " ++ toString stored ++ " items in map '" ++ p.mapName ++ "'")
    pure stored
  | e :: es, stored => do
    let key ← p.keyOf e
    let present : Bool ← Attempt.call h (.containsKey key)
    if present then ingest h es stored
    else
      let value ← Attempt.ofExcept e.value
      Attempt.call h (.set key value)
      ingest h es (stored + 1)

/-- Reads the given elements back and checks them; the number of all elements. -/
def readAll (h : Handle) : List Element → Attempt Nat
  | [] => do
    say .trace ("retrieved " ++ toString p.config.elements.length ++ " items from map '"
      ++ p.mapName ++ "'")
    pure p.config.elements.length
  | e :: es => do
    let key ← p.keyOf e
    let answer : Option Json ← Attempt.call h (.get key)
    match answer with
    | none => throw (.failed (.missingValue key))
    | some v =>
      Attempt.ofExcept (p.config.check v)
      readAll h es

/-- Removes the given elements where they are present, and counts them. -/
def remove (h : Handle) : List Element → Nat → Attempt Nat
  | [], removed => do
    say .trace ("removed " ++ toString removed ++ " elements from map '" ++ p.mapName ++ "'")
    pure removed
  | e :: es, removed => do
    let key ← p.keyOf e
    let present : Bool ← Attempt.call h (.containsKey key)
    if present then
      let _ : Option Json ← Attempt.call h (.remove key)
      remove h es (removed + 1)
    else remove h es removed

/-- Writes what is missing of the partition's elements; the number written. -/
def ingestAll (h : Handle) : Attempt Nat := p.ingest h p.config.elements 0

/-- Removes the first elements, as many as are drawn; the number removed. -/
def removeSome (h : Handle) : Attempt Nat := do
  let es := p.config.elements
  let count : Nat ← Proc.lift (.pick (removalCount es.length))
  p.remove h (es.take count) 0

/-! ## Rounds -/

/-- Carries an action out; `next` follows unless it fails. -/
def attempt {α : Type} (action : Action) (a : Attempt α) (next : Proc RoundEnd) : Proc RoundEnd := do
  match ← a.run with
  | .ok _ => next
  | .error (.failed cause) => pure (.failed action cause)
  | .error (.crashed message) => pure (.crashed message)

/-- One round: ingest, read and remove, with a pause between them. -/
def round (h : Handle) : Proc RoundEnd :=
  let between := rest p.config.plan.betweenActionBatches
  attempt .ingest (p.ingestAll h) do
    between
    attempt .read (p.readAll h p.config.elements) do
      between
      attempt .remove (p.removeSome h) (pure .completed)

/-- Rounds after which the progress is logged. -/
def progressStep : Nat := 50

/-- Logs what is logged before a round. -/
def announce (run : Nat) : Proc Unit := do
  if 0 < run ∧ run % progressStep = 0 then
    p.tell .info ("finished " ++ toString run ++ " of " ++ toString p.config.plan.numRuns.toNat
      ++ " runs for " ++ p.onMap)
  p.tell .trace ("in run " ++ toString run ++ " on " ++ p.onMap)

/-- Logs a round's failure. -/
def report (run : Nat) (action : Action) (cause : Fault) : Proc Unit :=
  say .warn ("failed to " ++ action.describe ++ " map"
    ++ p.members [("run", toString run), ("error", cause.message)])

/-- Publishes a count. -/
def publish (key : String) (count : Nat) : Proc Unit :=
  .lift (.publish (.update key (.ofNat count)))

/-- The rounds that are left, with the counts so far.  The result is the message of the crash
    that ended them early, if one did. -/
def rounds (h : Handle) : Nat → Nat → Nat → Nat → Proc (Option String)
  | 0, _, completed, failed => do
    p.tell .info ("map test loop done on " ++ p.onMap ++ " (" ++ toString completed ++ " ok, "
      ++ toString failed ++ " failed)")
    pure none
  | left + 1, run, completed, failed => do
    rest p.config.plan.betweenRuns
    p.announce run
    match ← p.round h with
    | .completed => do
      publish (completedKey p.number) (completed + 1)
      rounds h left (run + 1) (completed + 1) failed
    | .failed action cause => do
      p.report run action cause
      publish (failedKey p.number) (failed + 1)
      rounds h left (run + 1) completed (failed + 1)
    | .crashed message => pure (some message)

/-! ## The whole worker -/

/-- Acquires the partition's map. -/
def acquire : Proc (Except Fault Handle) :=
  .lift (.ask (.acquire p.mapName) (some p.config.getMapTimeoutMs))

/-- Releases the map; a failure is only logged. -/
def release (h : Handle) : Proc Unit := do
  let answer : Except Fault Unit ← .lift (.ask (.release h) none)
  match answer with
  | .ok () => pure ()
  | .error f => say .warn ("failed to release map handle" ++ p.members [("error", f.message)])

/-- The worker of the partition.  Its result is the message of the crash it ended with, if it
    did. -/
def work : Proc (Option String) := do
  p.tell .info ("using map name '" ++ p.mapName ++ "' in partition " ++ toString p.number)
  let start : Nat ← .lift .clock
  match ← p.acquire with
  | .error f =>
    say .error ("unable to retrieve map, aborting partition" ++ p.members [("error", f.message)])
    pure none
  | .ok h =>
    let now : Nat ← .lift .clock
    p.tell .info ("get_map() on '" ++ p.mapName ++ "' took " ++ toString (now - start) ++ " ms")
    let crash ← p.rounds h p.config.plan.numRuns.toNat 0 0 0
    p.release h
    pure crash

end Partition

end GridBench
