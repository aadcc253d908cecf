/-
  GridBench.Number.Binary

  Binary floating-point numbers as exact data: a sign, a whole significand
  and a power of two.  Every finite number of a format is produced by one
  function, `Binary.ofRatio`, which rounds an exact quotient to the nearest
  number of the format and a half to the even neighbour; reading decimal
  text, narrowing a double and converting a natural number are instances.
-/

namespace GridBench

/-- A format holds `precision` bits of significand; its finite numbers are the
    multiples of `2 ^ minExponent` whose exponent stays below `maxExponent + 1`. -/
structure BinaryFormat where
  precision : Nat
  minExponent : Int
  maxExponent : Int
deriving DecidableEq, Repr

namespace BinaryFormat

/-- The 32-bit interchange format. -/
def single : BinaryFormat := ⟨24, -149, 104⟩

/-- The 64-bit interchange format. -/
def double : BinaryFormat := ⟨53, -1074, 971⟩

end BinaryFormat

/-- A number of the format `f`.  A finite number is `significand * 2 ^ exponent`;
    the significand has exactly `f.precision` bits unless the exponent is the least one. -/
inductive Binary (f : BinaryFormat) where
  | nan
  | infinite (negative : Bool)
  | finite (negative : Bool) (significand : Nat) (exponent : Int)
deriving DecidableEq, Repr

/-- Numbers of the 32-bit format. -/
abbrev Single := Binary BinaryFormat.single

/-- Numbers of the 64-bit format. -/
abbrev Double := Binary BinaryFormat.double

namespace Binary

variable {f : BinaryFormat}

/-- Zero with a sign. -/
def zero (f : BinaryFormat) (negative : Bool) : Binary f :=
  .finite negative 0 f.minExponent

instance : Inhabited (Binary f) := ⟨zero f false⟩

/-- The quotient `num / den` scaled by `2 ^ (-e)`, as a numerator and a denominator. -/
def scaled (num den : Nat) (e : Int) : Nat × Nat :=
  if 0 ≤ e then (num, den * Nat.pow 2 e.toNat) else (num * Nat.pow 2 (-e).toNat, den)

/-- The largest `k` with `2 ^ k ≤ num / den`, for positive `num` and `den`. -/
def log2Ratio (num den : Nat) : Int :=
  let k : Int := (Nat.log2 num : Int) - (Nat.log2 den : Int)
  let (a, b) := scaled num den k
  if b ≤ a then k else k - 1

/-- The whole number nearest to `num / den`; a half goes to the even neighbour. -/
def nearestEven (num den : Nat) : Nat :=
  let q := num / den
  let r := num % den
  if 2 * r < den then q
  else if den < 2 * r then q + 1
  else if q % 2 = 0 then q else q + 1

/-- The number of the format nearest to `num / den` with the given sign, a half going to
    the even neighbour and everything beyond the largest number to an infinity. -/
def ofRatio (f : BinaryFormat) (negative : Bool) (num den : Nat) : Binary f :=
  if num = 0 ∨ den = 0 then zero f negative
  else
    let e := max f.minExponent (log2Ratio num den - (f.precision - 1 : Nat))
    let (a, b) := scaled num den e
    let m := nearestEven a b
    let (m, e) :=
      if m = Nat.pow 2 f.precision then (Nat.pow 2 (f.precision - 1), e + 1) else (m, e)
    if f.maxExponent < e then .infinite negative else .finite negative m e

/-- The number of the format nearest to a natural number. -/
def ofNat (f : BinaryFormat) (n : Nat) : Binary f := ofRatio f false n 1

/-- The number of the format nearest to an integer. -/
def ofInt (f : BinaryFormat) (i : Int) : Binary f := ofRatio f (decide (i < 0)) i.natAbs 1

/-- The number of another format nearest to this one. -/
def convert (g : BinaryFormat) : Binary f → Binary g
  | .nan => .nan
  | .infinite s => .infinite s
  | .finite s m e =>
    if 0 ≤ e then ofRatio g s (m * Nat.pow 2 e.toNat) 1 else ofRatio g s m (Nat.pow 2 (-e).toNat)

/-- Whether the number is finite. -/
def isFinite : Binary f → Bool
  | .finite .. => true
  | _ => false

/-- Whether the number lies above zero. -/
def isPositive : Binary f → Bool
  | .nan => false
  | .infinite s => !s
  | .finite s m _ => !s && m != 0

/-- Whether the number is at most one. -/
def isAtMostOne : Binary f → Bool
  | .nan => false
  | .infinite s => s
  | .finite s m e =>
    s || m == 0 || (if 0 ≤ e then m * Nat.pow 2 e.toNat ≤ 1 else m ≤ Nat.pow 2 (-e).toNat)

@[simp] theorem isPositive_nan : (nan : Binary f).isPositive = false := rfl

@[simp] theorem isAtMostOne_nan : (nan : Binary f).isAtMostOne = false := rfl

end Binary

end GridBench
