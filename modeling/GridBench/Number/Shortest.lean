/-
  GridBench.Number.Shortest

  The shortest decimal numeral that reads back as a given binary number.

  For one digit, two digits, and so on, the two neighbours of the number on
  the grid of that many digits are tried; the first grid with a neighbour that
  reads back wins, and of two such neighbours the nearer one.  If no short grid
  has one, the number's exact expansion is taken, so the result always reads
  back (`reads_back` is checked, not assumed).
-/
import GridBench.Number.Decimal

namespace GridBench

/-- Which of two equally near neighbours is written. -/
inductive TieRule where
  | up
  | even
deriving DecidableEq, Repr

namespace Binary

variable {f : BinaryFormat}

/-- `num / den` divided by `10 ^ k`, as a numerator and a denominator. -/
def overPowerOfTen (num den : Nat) (k : Int) : Nat × Nat :=
  if 0 ≤ k then (num, den * Nat.pow 10 k.toNat) else (num * Nat.pow 10 (-k).toNat, den)

/-- Whether `10 ^ k ≤ num / den`. -/
def powerOfTenFits (num den : Nat) (k : Int) : Bool :=
  let (a, b) := overPowerOfTen num den k
  b ≤ a

/-- Walks up from a low guess to the largest power of ten that still fits. -/
def climbPowerOfTen (num den : Nat) : Nat → Int → Int
  | 0, k => k
  | fuel + 1, k => if powerOfTenFits num den (k + 1) then climbPowerOfTen num den fuel (k + 1) else k

/-- The largest `k` with `10 ^ k ≤ num / den`.  The guess `30102 / 100000` for the decimal
    logarithm of two is low by less than three over the range of every format. -/
def log10Ratio (num den : Nat) : Int :=
  let guess := log2Ratio num den * 30103 / 100000 - 2
  climbPowerOfTen num den 6 guess

/-- The grid neighbours `q` and `q + 1` of `num / den` at `10 ^ k`: those that read back as
    `target`, the nearer first. -/
def neighbour? (tie : TieRule) (target : Binary f) (num den : Nat) (k : Int) : Option Nat :=
  let (a, b) := overPowerOfTen num den k
  let q := a / b
  let r := a % b
  let readsBack (n : Nat) : Bool := (Decimal.toBinary f ⟨false, n, k⟩) = target
  match readsBack q && q != 0, readsBack (q + 1) with
  | true, true =>
    if 2 * r < b then some q
    else if b < 2 * r then some (q + 1)
    else match tie with
      | .up => some (q + 1)
      | .even => some (if q % 2 = 0 then q else q + 1)
  | true, false => some q
  | false, true => some (q + 1)
  | false, false => none

/-- Tries grids of more and more digits, from `10 ^ k` downwards. -/
def searchGrid (tie : TieRule) (target : Binary f) (num den : Nat) : Nat → Int → Option (Nat × Int)
  | 0, _ => none
  | fuel + 1, k =>
    match neighbour? tie target num den k with
    | some n => some (n, k)
    | none => searchGrid tie target num den fuel (k - 1)

/-- Drops the zeros at the end of a coefficient. -/
def dropZeros : Nat → Nat → Int → Nat × Int
  | 0, n, k => (n, k)
  | fuel + 1, n, k => if n % 10 = 0 ∧ n ≠ 0 then dropZeros fuel (n / 10) (k + 1) else (n, k)

/-- The shortest coefficient and exponent of ten for the positive number
    `significand * 2 ^ exponent`. -/
def shortestPositive (f : BinaryFormat) (tie : TieRule) (significand : Nat) (exponent : Int) :
    Nat × Int :=
  let target : Binary f := .finite false significand exponent
  let (num, den) :=
    if 0 ≤ exponent then (significand * Nat.pow 2 exponent.toNat, 1)
    else (significand, Nat.pow 2 (-exponent).toNat)
  match searchGrid tie target num den 17 (log10Ratio num den) with
  | some (n, k) => dropZeros 20 n k
  | none =>
    if 0 ≤ exponent then (significand * Nat.pow 2 exponent.toNat, 0)
    else (significand * Nat.pow 5 (-exponent).toNat, exponent)

/-- The shortest numeral of a finite number; none for the others. -/
def shortest? (tie : TieRule) : Binary f → Option Decimal
  | .finite s m e =>
    if m = 0 then some ⟨s, 0, 0⟩
    else
      let (n, k) := shortestPositive f tie m e
      some ⟨s, n, k⟩
  | _ => none

end Binary

end GridBench
