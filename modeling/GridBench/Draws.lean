/-
  GridBench.Draws

  Random numbers as a stream that is consumed one draw at a time.  What a draw
  comes to is left to a rule (`DrawRule`), of which only this is known: a choice
  among numbered outcomes stays below their number, a character is an ASCII letter
  or digit, and each of these comes up for some draw.  The rule that takes draws
  modulo the number of outcomes is one of them.
-/

namespace GridBench

/-- The sixty-two ASCII letters and digits a payload is made of. -/
def alphanumerics : List Char :=
  "ABCDEFGHIJKLMNOPQRSTUVWXYZabcdefghijklmnopqrstuvwxyz0123456789".toList

/-- What draws come to. -/
structure DrawRule where
  /-- The outcome of a draw among some outcomes, which are numbered from zero. -/
  below : Nat → Nat → Nat
  /-- The letter or digit a draw stands for. -/
  letter : Nat → Char
  below_lt : ∀ {n : Nat}, 0 < n → ∀ draw, below n draw < n
  /-- As far as there are enough 64-bit draws, no outcome is left out. -/
  below_attained : ∀ {n k : Nat}, k < n → n ≤ UInt64.size →
    ∃ draw : UInt64, below n draw.toNat = k
  letter_mem : ∀ draw, letter draw ∈ alphanumerics
  letter_attained : ∀ ch ∈ alphanumerics, ∃ draw : UInt64, letter draw.toNat = ch

namespace DrawRule

/-- The rule that takes a draw modulo the number of outcomes. -/
def modulo : DrawRule where
  below n draw := draw % n
  letter draw := alphanumerics.getD (draw % alphanumerics.length) 'A'
  below_lt h draw := Nat.mod_lt draw h
  below_attained {n k} hk hn := by
    -- The outcome stands for itself.
    refine ⟨UInt64.ofNat k, ?_⟩
    rw [UInt64.toNat_ofNat_of_lt' (Nat.lt_of_lt_of_le hk hn)]
    exact Nat.mod_eq_of_lt hk
  letter_mem draw := by
    have hindex : draw % alphanumerics.length < alphanumerics.length :=
      Nat.mod_lt draw (by decide)
    rw [List.getD_eq_getElem?_getD, List.getElem?_eq_getElem hindex]
    exact List.getElem_mem hindex
  letter_attained ch h := by
    obtain ⟨i, hindex, rfl⟩ := List.getElem_of_mem h
    have hcount : alphanumerics.length ≤ UInt64.size := by decide
    refine ⟨UInt64.ofNat i, ?_⟩
    rw [UInt64.toNat_ofNat_of_lt' (Nat.lt_of_lt_of_le hindex hcount), Nat.mod_eq_of_lt hindex,
      List.getD_eq_getElem?_getD, List.getElem?_eq_getElem hindex]
    rfl

end DrawRule

/-- A stream of draws, how many of them are used up, and what they come to. -/
structure Draws where
  source : Nat → Nat
  used : Nat
  rule : DrawRule := .modulo

namespace Draws

/-- The stream that repeats a list of draws for ever; an empty list counts as a zero. -/
def cyclic (script : List Nat) : Draws where
  source i := script.getD (i % script.length) 0
  used := 0

instance : Inhabited Draws := ⟨cyclic []⟩

/-- Spreads the bits of a 64-bit number over all its places. -/
def scramble (n : UInt64) : UInt64 :=
  let n := (n ^^^ (n >>> 30)) * 0xBF58476D1CE4E5B9
  let n := (n ^^^ (n >>> 27)) * 0x94D049BB133111EB
  n ^^^ (n >>> 31)

/-- The stream that a seed stands for. -/
def seeded (seed : Nat) : Draws where
  source i := (scramble (seed.toUInt64 + (i + 1).toUInt64 * 0x9E3779B97F4A7C15)).toNat
  used := 0

/-- The next draw and the stream behind it. -/
def next (d : Draws) : Nat × Draws := (d.source d.used, { d with used := d.used + 1 })

end Draws

/-- A number that is given, or drawn from the numbers below a bound. -/
inductive Pick where
  | exactly (n : Nat)
  | below (outcomes : Nat)
deriving DecidableEq, Repr

namespace Pick

/-- The number picked and the draws that are left. -/
def take : Pick → Draws → Nat × Draws
  | .exactly n, d => (n, d)
  | .below n, d => (d.rule.below n d.next.1, d.next.2)

end Pick

/-- How many elements one removal takes out of `length`: fewer than there are, if there are any. -/
def removalCount (length : Nat) : Pick := if length = 0 then .exactly 0 else .below length

end GridBench
