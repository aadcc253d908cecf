/-
  GridBench.Yaml.Core

  The core schema: which value a plain scalar stands for.  A text that is no
  null, boolean, whole number or floating-point number is a string; so are
  numbers with leading zeros and numbers beyond 128 bits or beyond the largest double.
-/
import GridBench.Yaml.Node
import GridBench.Number.Decimal

namespace GridBench.Yaml

namespace Tag

def bool : String := "tag:yaml.org,2002:bool"
def int : String := "tag:yaml.org,2002:int"
def float : String := "tag:yaml.org,2002:float"
def null : String := "tag:yaml.org,2002:null"
def str : String := "tag:yaml.org,2002:str"

/-- The name that a local tag such as `!a` carries: what stands behind the mark, or the mark
    itself if nothing does. -/
def localName? (tag : Option String) : Option String :=
  match tag.map String.toList with
  | some ('!' :: rest) => some (if rest.isEmpty then "!" else String.ofList rest)
  | _ => none

end Tag

/-- Whether a text spells the null value. -/
def isNullText (s : String) : Bool := s = "null" || s = "Null" || s = "NULL" || s = "~"

/-- The boolean a text spells. -/
def boolOfText? (s : String) : Option Bool :=
  if s = "true" || s = "True" || s = "TRUE" then some true
  else if s = "false" || s = "False" || s = "FALSE" then some false
  else none

/-- The value of a digit in a base up to sixteen. -/
def digitIn? (base : Nat) (c : Char) : Option Nat :=
  let v :=
    if c.isDigit then c.toNat - '0'.toNat
    else if 'a' ≤ c ∧ c ≤ 'f' then c.toNat - 'a'.toNat + 10
    else if 'A' ≤ c ∧ c ≤ 'F' then c.toNat - 'A'.toNat + 10
    else base
  if v < base then some v else none

/-- The value of one or more digits in a base. -/
def digitsIn? (base : Nat) (cs : List Char) : Option Nat :=
  if cs.isEmpty then none
  else cs.foldl (fun acc c => acc.bind fun n => (digitIn? base c).map (base * n + ·)) (some 0)

/-- Whether a text is a number written with leading zeros, which makes it a string. -/
def hasLeadingZero (cs : List Char) : Bool :=
  let cs := match cs with
    | '-' :: r => r
    | '+' :: r => r
    | r => r
  match cs with
  | '0' :: d :: r => (d :: r).all Char.isDigit
  | _ => false

/-- The natural number a text spells in base sixteen, eight, two or ten, if it is below `limit`. -/
def natural? (limit : Nat) (cs : List Char) : Option Nat :=
  let below (n : Option Nat) : Option Nat := n.filter (· < limit)
  let body := match cs with
    | '+' :: r => r
    | r => r
  match body with
  | '0' :: 'x' :: r => below (digitsIn? 16 r)
  | '0' :: 'o' :: r => below (digitsIn? 8 r)
  | '0' :: 'b' :: r => below (digitsIn? 2 r)
  | r => if hasLeadingZero cs then none else below (digitsIn? 10 r)

/-- The magnitude of the negative whole number a text spells, if it is at most `limit`. -/
def negative? (limit : Nat) (cs : List Char) : Option Nat :=
  let upTo (n : Option Nat) : Option Nat := n.filter (· ≤ limit)
  match cs with
  | '-' :: '0' :: 'x' :: r => upTo (digitsIn? 16 r)
  | '-' :: '0' :: 'o' :: r => upTo (digitsIn? 8 r)
  | '-' :: '0' :: 'b' :: r => upTo (digitsIn? 2 r)
  | '-' :: r => if hasLeadingZero cs then none else upTo (digitsIn? 10 r)
  | _ => none

/-- The double a text spells: an infinity, the number that is none, or a finite decimal numeral. -/
def doubleOfText? (s : String) : Option Double :=
  let cs := s.toList
  let unsigned := match cs with
    | '+' :: r => r
    | r => r
  let signedTwice := match cs with
    | '+' :: '+' :: _ => true
    | '+' :: '-' :: _ => true
    | _ => false
  let body := String.ofList unsigned
  if signedTwice then none
  else if body = ".inf" || body = ".Inf" || body = ".INF" then some (.infinite false)
  else if s = "-.inf" || s = "-.Inf" || s = "-.INF" then some (.infinite true)
  else if s = ".nan" || s = ".NaN" || s = ".NAN" then some .nan
  else ((Decimal.ofChars? unsigned).map (Decimal.toBinary .double)).filter (·.isFinite)

/-- The value of a plain scalar. -/
inductive CoreValue where
  | null
  | bool (b : Bool)
  | natural (n : Nat)
  /-- A whole number written with a minus sign, which zero may carry as well. -/
  | negated (n : Nat)
  /-- A whole number beyond 64 bits. -/
  | wide (i : Int)
  | real (x : Double)
  | text (s : String)
deriving DecidableEq, Repr

/-- The whole number a text spells, of up to 128 bits. -/
def wholeOfText? (s : String) : Option CoreValue :=
  let cs := s.toList
  match natural? (.pow 2 64) cs with
  | some n => some (.natural n)
  | none =>
    match negative? (.pow 2 63) cs with
    | some n => some (.negated n)
    | none =>
      match natural? (.pow 2 128) cs with
      | some n => some (.wide n)
      | none => (negative? (.pow 2 127) cs).map fun n => .wide (-(n : Int))

/-- The value of a plain scalar's text. -/
def coreValue (s : String) : CoreValue :=
  if s.isEmpty || isNullText s then .null
  else
    match boolOfText? s with
    | some b => .bool b
    | none =>
      match wholeOfText? s with
      | some v => v
      | none =>
        if hasLeadingZero s.toList then .text s
        else
          match doubleOfText? s with
          | some x => .real x
          | none => .text s

/-- What is wrong with a scalar whose tag names a type its text is not of. -/
structure TagMismatch where
  text : String
  expected : String
deriving DecidableEq, Repr

/-- The value of a scalar: as its tag says, else by the core schema if it is plain, else its text. -/
def Scalar.value (s : Scalar) : Except TagMismatch CoreValue :=
  let as (v : Option CoreValue) (expected : String) : Except TagMismatch CoreValue :=
    match v with
    | some v => .ok v
    | none => .error ⟨s.text, expected⟩
  let untagged : CoreValue := if s.style = .plain then coreValue s.text else .text s.text
  match s.tag with
  | none => .ok untagged
  | some tag =>
    if tag = Tag.bool then as ((boolOfText? s.text).map .bool) "a boolean"
    else if tag = Tag.int then as (wholeOfText? s.text) "an integer"
    else if tag = Tag.float then as ((doubleOfText? s.text).map .real) "a float"
    else if tag = Tag.null then as (if isNullText s.text then some .null else none) "null"
    else if tag.startsWith "!" then .ok untagged
    else .ok (.text s.text)

end GridBench.Yaml
