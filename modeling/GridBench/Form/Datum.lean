/-
  GridBench.Form.Datum

  Values whose type is already known: what a form is written to, and what it
  is read from once plain text has been given a type.
-/
import GridBench.Json.Basic

namespace GridBench

/-- A typed value.  The entries of a table keep their order, and a key may be any value. -/
inductive Datum where
  | unit
  | bool (b : Bool)
  | natural (n : Nat)
  /-- A whole number with a minus sign, which zero may carry as well. -/
  | negated (n : Nat)
  | single (x : Single)
  | double (x : Double)
  | text (s : String)
  | list (items : List Datum)
  | table (entries : List (Datum × Datum))
deriving Repr

namespace Datum

instance : Inhabited Datum := ⟨.unit⟩

/-- A whole number, with a sign only below zero. -/
def ofInt : Int → Datum
  | .ofNat n => .natural n
  | .negSucc n => .negated (n + 1)

/-- The whole number a value is, if it is one. -/
def int? : Datum → Option Int
  | .natural n => some n
  | .negated n => some (-n)
  | _ => none

mutual

/-- A JSON value as a typed value. -/
def ofJson : Json → Datum
  | .null => .unit
  | .bool b => .bool b
  | .integer i => .ofInt i
  | .real x => .double x
  | .text s => .text s
  | .array items => .list (ofItems items)
  | .object members => .table (ofMembers members)

/-- The items of an array. -/
def ofItems : List Json → List Datum
  | [] => []
  | v :: vs => ofJson v :: ofItems vs

/-- The members of an object, with their names as keys. -/
def ofMembers : List (String × Json) → List (Datum × Datum)
  | [] => []
  | (n, v) :: ms => (.text n, ofJson v) :: ofMembers ms

end

mutual

/-- A typed value as JSON; `single` writes the single-precision numbers.  A key that is no text
    is left out. -/
def toJson (single : Single → Json) : Datum → Json
  | .unit => .null
  | .bool b => .bool b
  | .natural n => .integer n
  | .negated n => .integer (-n)
  | .single x => single x
  | .double x => .real x
  | .text s => .text s
  | .list items => .array (toItems single items)
  | .table entries => Json.ofMembers (toMembers single entries)

/-- The items of a list. -/
def toItems (single : Single → Json) : List Datum → List Json
  | [] => []
  | v :: vs => toJson single v :: toItems single vs

/-- The entries of a table whose keys are texts. -/
def toMembers (single : Single → Json) : List (Datum × Datum) → List (String × Json)
  | [] => []
  | (.text n, v) :: es => (n, toJson single v) :: toMembers single es
  | _ :: es => toMembers single es

end

end Datum

end GridBench
