/-
  GridBench.Number.Style

  How a floating-point number is written.  A `FloatStyle` collects every
  decision of an output format: where positional form ends, whether a whole
  number keeps its `.0`, how an exponent is signed, and the words for the
  numbers that are not finite.
-/
import GridBench.Number.Shortest

namespace GridBench

/-- The decisions of one floating-point output format. -/
structure FloatStyle where
  /-- Which of two equally near shortest numerals is taken. -/
  tie : TieRule
  /-- Positional form for numbers whose point stands at most this far right of the first digit. -/
  mostWholeDigits : Option Nat
  /-- Positional form for numbers below one with at most this many zeros behind the point. -/
  mostLeadingZeros : Option Nat
  /-- A whole number in positional form ends in `.0`. -/
  keepsPoint : Bool
  /-- A positive exponent carries a plus sign. -/
  plusExponent : Bool
  nan : String
  infinity : String
  negativeInfinity : String

namespace FloatStyle

/-- Always positional, without a trailing point: `0.8`, `1`, `-0`, `inf`. -/
def plain : FloatStyle :=
  ⟨.up, none, none, false, false, "NaN", "inf", "-inf"⟩

/-- Always positional, and a whole number keeps its point: `1.0`, `1000.0`. -/
def pointed : FloatStyle :=
  ⟨.up, none, none, true, false, "NaN", "inf", "-inf"⟩

/-- Numbers of a JSON document: positional up to sixteen whole digits, then `1e+300`. -/
def json : FloatStyle :=
  ⟨.even, some 16, some 4, true, true, "NaN", "inf", "-inf"⟩

/-- Single-precision numbers of a YAML document: positional up to thirteen whole digits, then
    `1e20`. -/
def yamlSingle : FloatStyle :=
  ⟨.even, some 13, some 5, true, false, ".nan", ".inf", "-.inf"⟩

/-- Double-precision numbers of a YAML document. -/
def yamlDouble : FloatStyle :=
  ⟨.even, some 16, some 4, true, false, ".nan", ".inf", "-.inf"⟩

/-- Digits and the place of the point: the point stands behind the `point`-th digit. -/
def positional (keepsPoint : Bool) (digits : List Char) (point : Int) : String :=
  if point ≤ 0 then
    "0." ++ String.ofList (List.replicate (-point).toNat '0' ++ digits)
  else
    let whole := point.toNat
    if digits.length ≤ whole then
      String.ofList (digits ++ List.replicate (whole - digits.length) '0')
        ++ (if keepsPoint then ".0" else "")
    else String.ofList (digits.take whole) ++ "." ++ String.ofList (digits.drop whole)

/-- One digit, the point, the other digits, and the exponent. -/
def scientific (plusExponent : Bool) (digits : List Char) (point : Int) : String :=
  let mantissa :=
    match digits with
    | d :: e :: rest => String.ofList (d :: '.' :: e :: rest)
    | ds => String.ofList ds
  let exponent := point - 1
  let sign := if exponent < 0 then "-" else if plusExponent then "+" else ""
  mantissa ++ "e" ++ sign ++ toString exponent.natAbs

/-- Writes an unsigned shortest numeral. -/
def magnitude (style : FloatStyle) (coefficient : Nat) (exponent : Int) : String :=
  if coefficient = 0 then if style.keepsPoint then "0.0" else "0"
  else
    let digits := Nat.toDigits 10 coefficient
    let point := exponent + digits.length
    let fits :=
      if 0 < point then
        match style.mostWholeDigits with
        | none => true
        | some n => decide (point ≤ n)
      else
        match style.mostLeadingZeros with
        | none => true
        | some n => decide (-point ≤ n)
    if fits then positional style.keepsPoint digits point
    else scientific style.plusExponent digits point

/-- The text of a number in this style. -/
def render (style : FloatStyle) {f : BinaryFormat} (x : Binary f) : String :=
  match x with
  | .nan => style.nan
  | .infinite s => if s then style.negativeInfinity else style.infinity
  | .finite s .. =>
    match x.shortest? style.tie with
    | some d => (if s then "-" else "") ++ style.magnitude d.coefficient d.exponent
    | none => style.nan

end FloatStyle

end GridBench
