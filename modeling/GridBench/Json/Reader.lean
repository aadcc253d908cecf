/-
  GridBench.Json.Reader

  Reads JSON text.  The fuel bounds the number of values and steps and is the
  length of the text, of which every step takes at least one character.
-/
import GridBench.Json.Basic
import GridBench.Number.Decimal

namespace GridBench.Json

/-- Drops the blanks that may stand between the parts of a JSON text. -/
def skipBlanks (cs : List Char) : List Char :=
  cs.dropWhile fun c => c = ' ' || c = '\t' || c = '\n' || c = '\r'

/-- The value of a hexadecimal digit. -/
def hexDigit? (c : Char) : Option Nat :=
  if '0' ≤ c ∧ c ≤ '9' then some (c.toNat - '0'.toNat)
  else if 'a' ≤ c ∧ c ≤ 'f' then some (c.toNat - 'a'.toNat + 10)
  else if 'A' ≤ c ∧ c ≤ 'F' then some (c.toNat - 'A'.toNat + 10)
  else none

/-- The value of four hexadecimal digits, and the rest. -/
def hexQuad? : List Char → Option (Nat × List Char)
  | a :: b :: c :: d :: rest => do
    let a ← hexDigit? a
    let b ← hexDigit? b
    let c ← hexDigit? c
    let d ← hexDigit? d
    some (((a * 16 + b) * 16 + c) * 16 + d, rest)
  | _ => none

/-- Reads the rest of a string up to its closing quote; `acc` holds the characters so far,
    the last one first. -/
def readString : Nat → List Char → List Char → Option (String × List Char)
  | 0, _, _ => none
  | fuel + 1, acc, cs =>
    match cs with
    | '"' :: rest => some (String.ofList acc.reverse, rest)
    | '\\' :: 'u' :: rest => do
      let (n, rest) ← hexQuad? rest
      if 0xD800 ≤ n ∧ n < 0xDC00 then
        match rest with
        | '\\' :: 'u' :: rest' => do
          let (m, rest') ← hexQuad? rest'
          if 0xDC00 ≤ m ∧ m < 0xE000 then
            readString fuel (Char.ofNat (0x10000 + (n - 0xD800) * 0x400 + (m - 0xDC00)) :: acc) rest'
          else none
        | _ => none
      else if 0xDC00 ≤ n ∧ n < 0xE000 then none
      else readString fuel (Char.ofNat n :: acc) rest
    | '\\' :: c :: rest =>
      let plain (d : Char) := readString fuel (d :: acc) rest
      if c = '"' then plain '"'
      else if c = '\\' then plain '\\'
      else if c = '/' then plain '/'
      else if c = 'b' then plain (Char.ofNat 8)
      else if c = 'f' then plain (Char.ofNat 12)
      else if c = 'n' then plain '\n'
      else if c = 'r' then plain '\r'
      else if c = 't' then plain '\t'
      else none
    | c :: rest => readString fuel (c :: acc) rest
    | [] => none

/-- The value of a number's text: a 64-bit integer if it is one, else a double. -/
def numberOfChars? (cs : List Char) : Option Json :=
  let whole := cs.all fun c => c.isDigit || c = '-'
  (Decimal.ofChars? cs).map fun d =>
    let i : Int := if d.negative then -(d.coefficient : Int) else d.coefficient
    let fits := -(Nat.pow 2 63 : Int) ≤ i ∧ i < Nat.pow 2 64 ∧ ¬(d.negative ∧ d.coefficient = 0)
    if whole ∧ fits then .integer i else .real (d.toBinary .double)

mutual

/-- Reads one value. -/
def readValue : Nat → List Char → Option (Json × List Char)
  | 0, _ => none
  | fuel + 1, cs =>
    match skipBlanks cs with
    | 'n' :: 'u' :: 'l' :: 'l' :: rest => some (.null, rest)
    | 't' :: 'r' :: 'u' :: 'e' :: rest => some (.bool true, rest)
    | 'f' :: 'a' :: 'l' :: 's' :: 'e' :: rest => some (.bool false, rest)
    | '"' :: rest => (readString (rest.length + 1) [] rest).map fun (s, rest) => (.text s, rest)
    | '[' :: rest =>
      match skipBlanks rest with
      | ']' :: rest => some (.array [], rest)
      | rest => (readItems fuel rest).map fun (vs, rest) => (.array vs, rest)
    | '\x7b' :: rest =>
      match skipBlanks rest with
      | '\x7d' :: rest => some (.object [], rest)
      | rest => (readMembers fuel rest).map fun (ms, rest) => (ofMembers ms, rest)
    | cs =>
      let isNumeric (c : Char) : Bool :=
        c.isDigit || c = '-' || c = '+' || c = '.' || c = 'e' || c = 'E'
      (numberOfChars? (cs.takeWhile isNumeric)).map fun v => (v, cs.dropWhile isNumeric)

/-- Reads the items of an array up to its closing bracket. -/
def readItems : Nat → List Char → Option (List Json × List Char)
  | 0, _ => none
  | fuel + 1, cs => do
    let (v, rest) ← readValue fuel cs
    match skipBlanks rest with
    | ',' :: rest => do
      let (vs, rest) ← readItems fuel rest
      some (v :: vs, rest)
    | ']' :: rest => some ([v], rest)
    | _ => none

/-- Reads the members of an object up to its closing brace. -/
def readMembers : Nat → List Char → Option (List (String × Json) × List Char)
  | 0, _ => none
  | fuel + 1, cs =>
    match skipBlanks cs with
    | '"' :: rest => do
      let (name, rest) ← readString (rest.length + 1) [] rest
      match skipBlanks rest with
      | ':' :: rest => do
        let (v, rest) ← readValue fuel rest
        match skipBlanks rest with
        | ',' :: rest => do
          let (ms, rest) ← readMembers fuel rest
          some ((name, v) :: ms, rest)
        | '\x7d' :: rest => some ([(name, v)], rest)
        | _ => none
      | _ => none
    | _ => none

end

/-- Reads a text that holds exactly one value. -/
def ofString? (s : String) : Option Json :=
  let cs := s.toList
  match readValue (2 * cs.length + 2) cs with
  | some (v, rest) => if (skipBlanks rest).isEmpty then some v else none
  | none => none

end GridBench.Json
