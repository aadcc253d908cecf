/-
  GridBench.Json.Basic

  JSON values.  Whole numbers of the 64-bit ranges are integers; every other
  number is a double and stays one.  The members of an object are listed in
  strictly increasing order of their names, so that equal objects are equal lists.
-/
import GridBench.Number.Binary

namespace GridBench

/-- A JSON value. -/
inductive Json where
  | null
  | bool (b : Bool)
  | integer (i : Int)
  | real (x : Double)
  | text (s : String)
  | array (items : List Json)
  | object (members : List (String × Json))
deriving Repr

/-- A list of named members in increasing order of the names. -/
abbrev Members := List (String × Json)

namespace Members

/-- The value under a name. -/
def get? (ms : Members) (name : String) : Option Json := ms.lookup name

/-- Sets the value under a name and keeps the order. -/
def insert : Members → String → Json → Members
  | [], name, v => [(name, v)]
  | (n, w) :: rest, name, v =>
    if name = n then (name, v) :: rest
    else if name < n then (name, v) :: (n, w) :: rest
    else (n, w) :: insert rest name v

/-- The members of a list of pairs; of several with one name the last counts. -/
def ofList (pairs : List (String × Json)) : Members :=
  pairs.foldl (fun ms (n, v) => ms.insert n v) []

end Members

namespace Json

instance : Inhabited Json := ⟨.null⟩

/-- The object with the given members, in any order. -/
def ofMembers (pairs : List (String × Json)) : Json := .object (Members.ofList pairs)

/-- A natural number as a value. -/
def ofNat (n : Nat) : Json := .integer n

/-- An array of texts. -/
def ofTexts (ss : List String) : Json := .array (ss.map .text)

/-- The value of a whole number that is not negative. -/
def natural? : Json → Option Nat
  | .integer i => if 0 ≤ i then some i.toNat else none
  | _ => none

/-- The member of an object under a name. -/
def member? (v : Json) (name : String) : Option Json :=
  match v with
  | .object ms => Members.get? ms name
  | _ => none

@[simp] theorem natural?_ofNat (n : Nat) : (ofNat n).natural? = some n := by
  simp [ofNat, natural?]

end Json

end GridBench
