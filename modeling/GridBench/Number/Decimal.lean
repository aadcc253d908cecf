/-
  GridBench.Number.Decimal

  Decimal numerals: a natural number times a power of ten.  `Decimal.ofChars?`
  reads the usual floating-point spelling (`-1.5e3`, `.5`, `1.`), and
  `Decimal.toBinary` rounds the numeral to a binary format.
-/
import GridBench.Number.Binary

namespace GridBench

/-- The number `coefficient * 10 ^ exponent`, with a sign that also a zero keeps. -/
structure Decimal where
  negative : Bool
  coefficient : Nat
  exponent : Int
deriving DecidableEq, Repr

namespace Decimal

/-- The value of a run of decimal digits. -/
def digitsValue (cs : List Char) : Nat :=
  cs.foldl (fun n c => 10 * n + (c.toNat - '0'.toNat)) 0

/-- A sign at the head of a text, and the rest. -/
def splitSign : List Char → Bool × List Char
  | '-' :: cs => (true, cs)
  | '+' :: cs => (false, cs)
  | cs => (false, cs)

/-- The exponent part of a numeral: empty, or an `e` with at least one digit. -/
def exponentOfChars? : List Char → Option Int
  | [] => some 0
  | c :: cs =>
    if c = 'e' ∨ c = 'E' then
      let (negative, ds) := splitSign cs
      if ds.isEmpty || !ds.all Char.isDigit then none
      else some (if negative then -(digitsValue ds : Int) else digitsValue ds)
    else none

/-- Reads an optional sign, digits with at most one point and at least one digit, and an
    optional exponent.  Nothing may follow. -/
def ofChars? (cs : List Char) : Option Decimal :=
  let (negative, cs) := splitSign cs
  let whole := cs.takeWhile Char.isDigit
  let rest := cs.dropWhile Char.isDigit
  let (fraction, rest) :=
    match rest with
    | '.' :: rest => (rest.takeWhile Char.isDigit, rest.dropWhile Char.isDigit)
    | rest => ([], rest)
  if whole.isEmpty && fraction.isEmpty then none
  else
    (exponentOfChars? rest).map fun e =>
      ⟨negative, digitsValue (whole ++ fraction), e - fraction.length⟩

/-- The number of decimal digits of `n`; zero has one. -/
def digitCount (n : Nat) : Nat := (Nat.toDigits 10 n).length

/-- The number of the format nearest to the numeral.  Numerals whose leading digit stands far
    outside every format are decided without writing out their power of ten. -/
def toBinary (f : BinaryFormat) (d : Decimal) : Binary f :=
  if d.coefficient = 0 then Binary.zero f d.negative
  else
    let lead := d.exponent + digitCount d.coefficient
    if 1000 < lead then .infinite d.negative
    else if lead < -1000 then Binary.zero f d.negative
    else if 0 ≤ d.exponent then
      Binary.ofRatio f d.negative (d.coefficient * Nat.pow 10 d.exponent.toNat) 1
    else Binary.ofRatio f d.negative d.coefficient (Nat.pow 10 (-d.exponent).toNat)

end Decimal

end GridBench
