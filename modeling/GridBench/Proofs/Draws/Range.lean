/-
  GridBench.Proofs.Draws.Range

  Which numbers are drawn.  A number is either given, and then no draw is taken
  (`Pick.IsGiven`), or drawn from a range, and then one draw is taken, and the
  numbers that draws come to are exactly those of the range, whatever the rule is
  by which they do (`Pick.Covers`).  For the length of a pause the range is
  closed, and it may hold all 64-bit words; how many there are then is no word
  itself, and a word that counts them wraps to zero.  Main statement:
  `duration_removalCount_tight`.
-/
import Mathlib.Data.Nat.Basic
import Mathlib.Order.Interval.Set.Defs
import GridBench.Settings.Basic

namespace GridBench

namespace Pick

/-- The number is given, and picking it takes no draw. -/
def IsGiven (p : Pick) (n : Nat) : Prop := ∀ d, p.take d = (n, d)

/-- Picking takes one draw and comes to the numbers of a set, and to no others. -/
structure Covers (p : Pick) (range : Set Nat) : Prop where
  /-- Whatever is drawn, the number is in the set. -/
  sound : ∀ d, (p.take d).1 ∈ range
  takes : ∀ d, (p.take d).2 = d.next.2
  /-- By any rule, each number of the set is what some 64-bit draw comes to. -/
  attained : ∀ (rule : DrawRule), ∀ n ∈ range, ∃ draw : UInt64, ∀ d : Draws,
    d.rule = rule → d.next.1 = draw.toNat → (p.take d).1 = n

/-- A number can be picked, and all that can be picked are 64-bit words. -/
def Fits : Pick → Prop
  | .exactly n => n < UInt64.size
  | .below outcomes => 0 < outcomes ∧ outcomes ≤ UInt64.size

theorem isGiven_exactly (n : Nat) : (exactly n).IsGiven n := fun _ => rfl

/-- A number below a bound is drawn from all numbers below it, as far as there are words. -/
theorem covers_below {outcomes : Nat} (h : (below outcomes).Fits) :
    (below outcomes).Covers (Set.Iio outcomes) where
  sound d := d.rule.below_lt h.1 d.next.1
  takes _ := rfl
  attained rule n hn := by
    obtain ⟨draw, hdraw⟩ := rule.below_attained hn h.2
    refine ⟨draw, fun d hrule hd => ?_⟩
    show d.rule.below outcomes d.next.1 = n
    rw [hrule, hd]
    exact hdraw

end Pick

/-! ## Words -/

/-- A draw modulo the size of the closed range up to a word, computed with words.  If the range
    holds all words, their count wraps to zero, and the draw itself is the number. -/
theorem DrawRule.modulo_below_succ_toNat (most draw : UInt64) :
    modulo.below (most.toNat + 1) draw.toNat =
      (if most + 1 = 0 then draw else draw % (most + 1)).toNat := by
  have hmost : most.toNat < 2 ^ 64 := most.toNat_lt
  have hdraw : draw.toNat < 2 ^ 64 := draw.toNat_lt
  have hsucc : (most + 1).toNat = (most.toNat + 1) % 2 ^ 64 := UInt64.toNat_add most 1
  by_cases hwraps : most + 1 = 0
  · rw [if_pos hwraps]
    have hzero : (most.toNat + 1) % 2 ^ 64 = 0 := by
      rw [← hsucc, hwraps]
      rfl
    have hall : most.toNat + 1 = 2 ^ 64 := by omega
    rw [hall]
    exact Nat.mod_eq_of_lt hdraw
  · rw [if_neg hwraps, UInt64.toNat_mod, hsucc]
    have hne : (most.toNat + 1) % 2 ^ 64 ≠ 0 := by
      rw [← hsucc]
      intro h
      exact hwraps (UInt64.toNat_inj.mp h)
    have hlt : most.toNat + 1 < 2 ^ 64 := by omega
    rw [Nat.mod_eq_of_lt hlt]
    rfl

/-! ## Pauses and removals -/

namespace SleepPolicy

variable {s : SleepPolicy}

theorem isGiven_disabled (h : s.enabled = false) : s.duration.IsGiven 0 := by
  intro d
  rw [duration, h]
  rfl

theorem isGiven_fixed (h : s.enabled = true) (hfixed : s.randomised = false) :
    s.duration.IsGiven s.durationMs.toNat := by
  intro d
  rw [duration, h, hfixed]
  rfl

theorem duration_random (h : s.enabled = true) (hrandom : s.randomised = true) :
    s.duration = .below (s.durationMs.toNat + 1) := by
  rw [duration, h, hrandom]
  rfl

theorem fits_duration (s : SleepPolicy) : s.duration.Fits := by
  have hword : s.durationMs.toNat < UInt64.size := s.durationMs.toNat_lt_size
  unfold duration
  cases s.enabled with
  | false => exact Nat.succ_pos _
  | true =>
    cases s.randomised with
    | false => exact hword
    | true => exact ⟨Nat.succ_pos _, hword⟩

theorem covers_random (h : s.enabled = true) (hrandom : s.randomised = true) :
    s.duration.Covers (Set.Iic s.durationMs.toNat) := by
  have hclosed : Set.Iic s.durationMs.toNat = Set.Iio (s.durationMs.toNat + 1) :=
    Set.ext fun n => Nat.lt_succ_iff.symm
  have hfits := s.fits_duration
  rw [duration_random h hrandom] at hfits ⊢
  rw [hclosed]
  exact Pick.covers_below hfits

end SleepPolicy

theorem removalCount_of_ne {length : Nat} (h : length ≠ 0) :
    removalCount length = .below length := if_neg h

theorem fits_removalCount (length : UInt64) : (removalCount length.toNat).Fits := by
  have hword : length.toNat < UInt64.size := length.toNat_lt_size
  by_cases hzero : length.toNat = 0
  · rw [hzero]
    exact Nat.succ_pos _
  · rw [removalCount_of_ne hzero]
    exact ⟨Nat.pos_of_ne_zero hzero, Nat.le_of_lt hword⟩

/-- How long a pause lasts, for every policy, and how many elements are removed, for every length.
    A pause takes no time if pauses are disabled and the set time if it is fixed, both without a
    draw.  If it is random it takes one draw and lasts any time up to the set one, that one
    included, and no longer; with a 64-bit draw that is taken modulo the number of possible times,
    this is the number that words compute, also if the count of these times wraps to zero.  From no
    elements none are removed, without a draw, and from some fewer than there are, with one draw,
    and any number of these.  No range is empty or reaches beyond the 64-bit words. -/
theorem duration_removalCount_tight (s : SleepPolicy) (length : UInt64) :
    (s.enabled = false → s.duration.IsGiven 0) ∧
    (s.enabled = true → s.randomised = false → s.duration.IsGiven s.durationMs.toNat) ∧
    (s.enabled = true → s.randomised = true →
      s.duration.Covers (Set.Iic s.durationMs.toNat) ∧
      ∀ (draw : UInt64) (d : Draws), d.rule = .modulo → d.next.1 = draw.toNat →
        (s.duration.take d).1 =
          (if s.durationMs + 1 = 0 then draw else draw % (s.durationMs + 1)).toNat) ∧
    (length = 0 → (removalCount length.toNat).IsGiven 0) ∧
    (length ≠ 0 → (removalCount length.toNat).Covers (Set.Iio length.toNat)) ∧
    s.duration.Fits ∧ (removalCount length.toNat).Fits := by
  refine ⟨SleepPolicy.isGiven_disabled, SleepPolicy.isGiven_fixed, ?_, ?_, ?_, s.fits_duration,
    fits_removalCount length⟩
  · intro henabled hrandom
    refine ⟨SleepPolicy.covers_random henabled hrandom, fun draw d hrule hd => ?_⟩
    rw [SleepPolicy.duration_random henabled hrandom, ← DrawRule.modulo_below_succ_toNat, ← hd,
      ← hrule]
    rfl
  · rintro rfl
    exact Pick.isGiven_exactly 0
  · intro hne
    have hlength : length.toNat ≠ 0 := fun h => hne (UInt64.toNat_inj.mp h)
    have hfits := fits_removalCount length
    rw [removalCount_of_ne hlength] at hfits ⊢
    exact Pick.covers_below hfits

/-- The random pause with the greatest limit there is can last that long: it does for the greatest
    draw, although the count of the possible times wraps.  One of two elements can be removed, but
    not both. -/
theorem duration_removalCount_tight_greatest :
    ((SleepPolicy.random (0 - 1)).duration.take (.cyclic [UInt64.size - 1])).1 =
      UInt64.size - 1 ∧
    (∃ d, ((removalCount 2).take d).1 = 1) ∧ ∀ d, ((removalCount 2).take d).1 ≠ 2 := by
  obtain ⟨-, -, hrandom, -, hremoval, -, -⟩ :=
    duration_removalCount_tight (SleepPolicy.random (0 - 1)) 2
  obtain ⟨-, hwords⟩ := hrandom rfl rfl
  have hremoval := hremoval (by decide)
  refine ⟨hwords (0 - 1) (.cyclic [UInt64.size - 1]) rfl rfl, ?_, fun d hboth => ?_⟩
  · obtain ⟨draw, hdraw⟩ := hremoval.attained .modulo 1 (show 1 < 2 by decide)
    exact ⟨.cyclic [draw.toNat], hdraw _ rfl rfl⟩
  · have hlt : ((removalCount 2).take d).1 < 2 := hremoval.sound d
    exact absurd hboth (Nat.ne_of_lt hlt)

end GridBench
