/-
  GridBench.Element

  Elements: what a test loop stores under its keys.  The loop sees of an
  element its identifier and its serialised form, either of which may be
  impossible to compute, and of a kind of elements a check of the values that
  are read back.  The check of a record is that a value has its shape.
-/
import GridBench.Form.Section
import GridBench.Draws
import GridBench.Fault

namespace GridBench

open GridBench.Form

/-- An element as a test loop sees it. -/
structure Element where
  /-- The identifier, or the message with which asking for it ends the worker. -/
  id : Except String String
  /-- The serialised form. -/
  value : Except Fault Json

/-- The type of a member of a record. -/
inductive MemberType where
  | text
  | uint32
deriving DecidableEq, Repr

namespace MemberType

/-- Why a value is not of the type. -/
def misfit? (t : MemberType) (v : Json) : Option Misfit :=
  match t with
  | .text => match Shape.text.ofJson v with
    | .ok _ => none
    | .error m => some m
  | .uint32 => match Shape.uint32.ofJson v with
    | .ok _ => none
    | .error m => some m

end MemberType

/-- A record: its full name, its short one, and its members, all of which are required. -/
structure RecordShape where
  fullName : String
  name : String
  members : List (String × MemberType)

namespace RecordShape

/-- What a value of the shape is expected to be when it has too few items. -/
def expectation (r : RecordShape) : String :=
  "struct " ++ r.name ++ " with " ++ toString r.members.length
    ++ (if r.members.length = 1 then " element" else " elements")

/-- Checks the items of an array against the members in their order. -/
def itemsMisfit? (r : RecordShape) (length : Nat) :
    Nat → List (String × MemberType) → List Json → Option Misfit
  | _, [], [] => none
  | _, [], _ :: _ => some (.wrongLength length "fewer elements in array")
  | taken, _ :: _, [] => some (.wrongLength taken r.expectation)
  | taken, (_, t) :: ms, v :: vs =>
    match t.misfit? v with
    | some m => some m
    | none => r.itemsMisfit? length (taken + 1) ms vs

/-- Checks the members of an object in their order, passing over those the record lacks. -/
def membersMisfit? (r : RecordShape) (ms : List (String × Json)) : Option Misfit :=
  ms.findSome? fun (n, v) => (r.members.lookup n).bind fun t => t.misfit? v

/-- The first member of the record that an object lacks. -/
def missing? (r : RecordShape) (ms : List (String × Json)) : Option Misfit :=
  (r.members.find? fun (n, _) => (ms.lookup n).isNone).map fun (n, _) => .missingField n

/-- Why a value does not have the shape.  Objects and arrays may have it. -/
def misfit? (r : RecordShape) : Json → Option Misfit
  | .object ms => (r.membersMisfit? ms).or (r.missing? ms)
  | .array vs => r.itemsMisfit? vs.length 0 r.members vs
  | v => some (.wrongType (.ofDatum (.ofJson v)) ("struct " ++ r.name))

/-- Accepts a value of the shape. -/
def check (r : RecordShape) (v : Json) : Except Fault Unit :=
  match r.misfit? v with
  | none => .ok ()
  | some m =>
    .error (.deserialization
      ("value retrieved from map is not a valid " ++ r.fullName ++ ": " ++ m.message .json))

/-- A shape stands for the check of its values. -/
instance : Coe RecordShape (Json → Except Fault Unit) := ⟨check⟩

end RecordShape

/-- An entry that the load runner writes. -/
structure LoadElement where
  key : String
  payload : String
deriving DecidableEq, Repr

namespace LoadElement

def shape : RecordShape :=
  ⟨"gridload::runner::load_runner::LoadElement", "LoadElement",
    [("key", .text), ("payload", .text)]⟩

/-- The serialised form. -/
def toJson (e : LoadElement) : Json :=
  .object [("key", .text e.key), ("payload", .text e.payload)]

/-- The element as a test loop sees it. -/
def element (e : LoadElement) : Element := ⟨.ok e.key, .ok e.toJson⟩

/-- A payload of the given size, one draw for each character. -/
def drawPayload : Nat → Draws → List Char × Draws
  | 0, d => ([], d)
  | n + 1, d =>
    let (draw, rest) := d.next
    let (cs, left) := drawPayload n rest
    (d.rule.letter draw :: cs, left)

/-- Elements numbered from zero that share one payload. -/
def populate (count size : Nat) (d : Draws) : List LoadElement × Draws :=
  let (cs, d) := drawPayload size d
  let text := String.ofList cs
  ((List.range count).map fun i => ⟨toString i, text⟩, d)

end LoadElement

end GridBench
