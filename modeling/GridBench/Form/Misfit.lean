/-
  GridBench.Form.Misfit

  Why a value does not fit a form, by cause, and how the two kinds of
  documents word it.  A document of one kind calls the empty value `unit value`
  and writes floating-point numbers positionally, one of the other calls it
  `null` and writes exponents.
-/
import GridBench.Form.Datum
import GridBench.Number.Style
import GridBench.Text.Quoted

namespace GridBench

/-- What was found in place of the expected value. -/
inductive Found where
  | unit
  | bool (b : Bool)
  | whole (i : Int)
  | wide (i : Int)
  | real (x : Double)
  | text (s : String)
  | list
  | table
deriving DecidableEq, Repr

/-- How the kind of a document names values. -/
inductive Wording where
  | yaml
  | json
deriving DecidableEq, Repr

namespace Found

/-- What a typed value is called. -/
def ofDatum : Datum → Found
  | .unit => .unit
  | .bool b => .bool b
  | .natural n => .whole n
  | .negated n => .whole (-n)
  | .single x => .real (x.convert .double)
  | .double x => .real x
  | .text s => .text s
  | .list _ => .list
  | .table _ => .table

/-- The words for what was found. -/
def describe (w : Wording) : Found → String
  | .unit => match w with
    | .yaml => "unit value"
    | .json => "null"
  | .bool b => "boolean `" ++ toString b ++ "`"
  | .whole i => "integer `" ++ toString i ++ "`"
  | .wide i => "integer `" ++ toString i ++ "` as " ++ (if i < 0 then "i128" else "u128")
  | .real x =>
    let style := match w with
      | .yaml => FloatStyle.pointed
      | .json => FloatStyle.json
    "floating point `" ++ style.render x ++ "`"
  | .text s => "string " ++ Text.quote s
  | .list => "sequence"
  | .table => "map"

end Found

/-- Why a value does not fit. -/
inductive Misfit where
  /-- The value is of another type. -/
  | wrongType (found : Found) (expected : String)
  /-- The value is of the type but out of range. -/
  | wrongValue (found : Found) (expected : String)
  | unknownVariant (name : String) (known : List String)
  | repeatedField (name : String)
  | missingField (name : String)
  | wrongLength (length : Nat) (expected : String)
  /-- A value with a local tag stands where types are decided without one. -/
  | taggedValue
deriving DecidableEq, Repr

namespace Misfit

/-- A choice among names, in words. -/
def oneOf (names : List String) : String :=
  match names.map fun n => "`" ++ n ++ "`" with
  | [] => "there are no variants"
  | [a] => a
  | [a, b] => a ++ " or " ++ b
  | all => "one of " ++ ", ".intercalate all

/-- The text of a misfit. -/
def message (w : Wording) : Misfit → String
  | .wrongType found expected =>
    "invalid type: " ++ found.describe w ++ ", expected " ++ expected
  | .wrongValue found expected =>
    "invalid value: " ++ found.describe w ++ ", expected " ++ expected
  | .unknownVariant name known =>
    "unknown variant `" ++ name ++ "`, expected " ++ oneOf known
  | .repeatedField name => "duplicate field `" ++ name ++ "`"
  | .missingField name => "missing field `" ++ name ++ "`"
  | .wrongLength length expected =>
    "invalid length " ++ toString length ++ ", expected " ++ expected
  | .taggedValue => "untagged and internally tagged enums do not support enum input"

end Misfit

end GridBench
