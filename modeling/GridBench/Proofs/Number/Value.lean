/-
  GridBench.Proofs.Number.Value

  The rational number that a binary number stands for, if it stands for one.
  Comparisons are computed on significand and exponent, without a division; they
  come down to comparisons of values (`isPositive_finite_iff`,
  `isAtMostOne_finite_iff`).  A number that is none, or infinite, has no value.
-/
import Mathlib.Algebra.Order.Field.Power
import Mathlib.Data.Rat.Cast.Order
import GridBench.Number.Binary

namespace GridBench

namespace Binary

variable {f : BinaryFormat}

/-- The value of a finite number without its sign. -/
def magnitude (m : Nat) (e : Int) : ℚ := m * 2 ^ e

/-- The value of a number; only finite ones have one. -/
def value? : Binary f → Option ℚ
  | .finite s m e => some (if s then -magnitude m e else magnitude m e)
  | _ => none

theorem magnitude_nonneg (m : Nat) (e : Int) : 0 ≤ magnitude m e :=
  mul_nonneg (Nat.cast_nonneg m) (zpow_nonneg zero_le_two e)

theorem magnitude_pos_iff {m : Nat} {e : Int} : 0 < magnitude m e ↔ m ≠ 0 := by
  rw [magnitude, mul_pos_iff_of_pos_right (zpow_pos zero_lt_two e), Nat.cast_pos,
    Nat.pos_iff_ne_zero]

/-- A power of two with a negative exponent goes to the other side. -/
theorem magnitude_le_one_iff {m : Nat} {e : Int} : magnitude m e ≤ 1 ↔
    if 0 ≤ e then m * Nat.pow 2 e.toNat ≤ 1 else m ≤ Nat.pow 2 (-e).toNat := by
  rw [magnitude]
  split
  · rename_i he
    obtain ⟨n, rfl⟩ := Int.eq_ofNat_of_zero_le he
    rw [zpow_natCast, Int.toNat_natCast]
    exact_mod_cast Iff.rfl
  · rename_i he
    obtain ⟨n, rfl⟩ : ∃ n : Nat, e = -(n : Int) := ⟨(-e).toNat, by omega⟩
    have hpow : (0 : ℚ) < 2 ^ n := pow_pos zero_lt_two n
    rw [neg_neg, Int.toNat_natCast, zpow_neg, zpow_natCast, ← div_eq_mul_inv, div_le_one₀ hpow]
    exact_mod_cast Iff.rfl

theorem isPositive_finite_iff {s : Bool} {m : Nat} {e : Int} :
    (finite s m e : Binary f).isPositive = true ↔
      0 < if s then -magnitude m e else magnitude m e := by
  cases s with
  | false => simp [isPositive, magnitude_pos_iff]
  | true => simp [isPositive, magnitude_nonneg]

theorem isAtMostOne_finite_iff {s : Bool} {m : Nat} {e : Int} :
    (finite s m e : Binary f).isAtMostOne = true ↔
      (if s then -magnitude m e else magnitude m e) ≤ 1 := by
  cases s with
  | true =>
    have hle : -magnitude m e ≤ 1 := (neg_nonpos.mpr (magnitude_nonneg m e)).trans zero_le_one
    exact iff_of_true (by simp [isAtMostOne]) hle
  | false =>
    have hzero : m = 0 → magnitude m e ≤ 1 := by
      rintro rfl
      simp [magnitude]
    have hfinite : (finite false m e : Binary f).isAtMostOne = true ↔
        m = 0 ∨ magnitude m e ≤ 1 := by
      rw [magnitude_le_one_iff]
      simp [isAtMostOne]
    exact hfinite.trans (or_iff_right_of_imp hzero)

/-- A number lies above zero and not above one if it has a value that does.  An infinity is never
    both, and what is no number is neither. -/
theorem exists_value_iff (x : Binary f) : x.isPositive = true ∧ x.isAtMostOne = true ↔
    ∃ v, x.value? = some v ∧ 0 < v ∧ v ≤ 1 := by
  cases x with
  | nan => simp [value?]
  | infinite s => cases s <;> simp [value?, isPositive, isAtMostOne]
  | finite s m e =>
    rw [isPositive_finite_iff, isAtMostOne_finite_iff]
    simp only [value?, Option.some.injEq, exists_eq_left']

end Binary

end GridBench
