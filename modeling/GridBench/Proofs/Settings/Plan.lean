/-
  GridBench.Proofs.Settings.Plan

  How the section of a runner is judged (`RunnerSection.Judged`), and what that
  says of its plan.  The plan of an accepted section holds its settings as they
  were.  A section is refused if it names no maps or no rounds, and more maps
  than the plan can hold are refused as well, so that a plan is always one with
  something to do (`RunPlan.Workable`), and its iterations can be counted
  (`RunPlan.toNat_totalRuns`).
-/
import GridBench.Settings.Resolve

namespace GridBench

/-! ## What a plan holds -/

/-- The boundary section that a plan was made of. -/
def BoundaryPlan.settings (b : BoundaryPlan) : BoundarySection where
  sleeps := ⟨b.betweenOperationChains⟩
  operationChain := ⟨b.chainLength, b.resetAfterChain, ⟨b.upper⟩⟩

/-- The section of a runner that a plan was made of. -/
def RunPlan.settings (p : RunPlan) : RunnerSection where
  enabled := p.enabled
  numMaps := p.numMaps.toUInt32
  numRuns := p.numRuns
  appendMapIndex := p.appendMapIndex
  appendClientId := p.appendClientId
  mapPrefix := ⟨p.usePrefix, p.mapPrefix⟩
  sleeps := ⟨p.betweenRuns⟩
  testLoop := ⟨p.loopType, ⟨⟨p.betweenActionBatches⟩⟩, p.boundary.settings⟩

/-! ## The checks -/

/-- How a boundary section is judged.  It is checked only if it is selected. -/
inductive BoundarySection.Judged (path : String) (b : BoundarySection) (selected : Bool) :
    Except SettingsProblem BoundaryPlan → Prop
  | emptyChain : selected = true → b.operationChain.length = 0 →
      Judged path b selected (.error (.emptyChain path))
  | fillPercentage : selected = true → b.operationChain.length ≠ 0 →
      isFillPercentage b.operationChain.boundaries.upper.mapFillPercentage = false →
      Judged path b selected
        (.error (.fillPercentage path b.operationChain.boundaries.upper.mapFillPercentage))
  | accepted {plan : BoundaryPlan} : (selected = true → b.operationChain.length ≠ 0 ∧
        isFillPercentage b.operationChain.boundaries.upper.mapFillPercentage = true) →
      plan.settings = b → plan.lower = none → Judged path b selected (.ok plan)

theorem BoundarySection.judged_resolve (path : String) (b : BoundarySection) (selected : Bool) :
    b.Judged path selected (b.resolve path selected) := by
  cases selected with
  | false => exact .accepted (fun h => nomatch h) rfl rfl
  | true =>
    simp only [resolve, Bool.true_and, beq_iff_eq, Bool.not_eq_true']
    split
    · rename_i hzero
      exact .emptyChain rfl hzero
    · rename_i hlength
      split
      · rename_i hfill
        exact .fillPercentage rfl hlength hfill
      · rename_i hfill
        exact .accepted (fun _ => ⟨hlength, Bool.not_eq_false _ ▸ hfill⟩) rfl rfl

/-- An accepted boundary section is held by its plan, which has no lower boundary. -/
theorem BoundarySection.Judged.held {path : String} {b : BoundarySection} {selected : Bool}
    {plan : BoundaryPlan} (h : b.Judged path selected (.ok plan)) :
    plan.settings = b ∧ plan.lower = none := by
  cases h with
  | accepted _ hsettings hlower => exact ⟨hsettings, hlower⟩

/-- A number of maps that fits is not changed by being narrowed. -/
theorem toUInt32_toUInt16 {n : UInt32} (h : n ≤ 65535) : n.toUInt16.toUInt32 = n := by
  have hle : n.toNat ≤ 65535 := UInt32.le_iff_toNat_le.mp h
  rw [← UInt32.toNat_inj, UInt16.toNat_toUInt32, UInt32.toNat_toUInt16, Nat.mod_eq_of_lt (by omega)]

/-- How the section of a runner is judged.  The settings are checked one after the other, and what
    is checked first is refused first. -/
inductive RunnerSection.Judged (path base : String) (s : RunnerSection) :
    Except SettingsProblem RunPlan → Prop
  | noMaps : s.numMaps = 0 → Judged path base s (.error (.noMaps path))
  | tooManyMaps : s.numMaps ≠ 0 → 65535 < s.numMaps →
      Judged path base s (.error (.tooManyMaps path s.numMaps))
  | noRuns : s.numMaps ≠ 0 → s.numMaps ≤ 65535 → s.numRuns = 0 →
      Judged path base s (.error (.noRuns path))
  | emptyBaseName : s.numMaps ≠ 0 → s.numMaps ≤ 65535 → s.numRuns ≠ 0 → base.isEmpty = true →
      Judged path base s (.error (.emptyBaseName path))
  | boundary {problem : SettingsProblem} : s.numMaps ≠ 0 → s.numMaps ≤ 65535 → s.numRuns ≠ 0 →
      s.testLoop.boundary.Judged path (s.testLoop.loopType == .boundary) (.error problem) →
      Judged path base s (.error problem)
  | accepted {plan : RunPlan} : s.numMaps ≠ 0 → s.numMaps ≤ 65535 → s.numRuns ≠ 0 →
      s.testLoop.boundary.Judged path (s.testLoop.loopType == .boundary) (.ok plan.boundary) →
      plan.settings = s → Judged path base s (.ok plan)

theorem RunnerSection.judged_resolve (path base : String) (s : RunnerSection) :
    s.Judged path base (s.resolve path base) := by
  unfold resolve
  split
  · rename_i hmaps
    exact .noMaps hmaps
  rename_i hmaps
  split
  · rename_i hmany
    exact .tooManyMaps hmaps hmany
  rename_i hmost
  rw [UInt32.not_lt] at hmost
  split
  · rename_i hruns
    exact .noRuns hmaps hmost hruns
  rename_i hruns
  split
  · rename_i hbase
    exact .emptyBaseName hmaps hmost hruns hbase
  have hboundary := s.testLoop.boundary.judged_resolve path (s.testLoop.loopType == .boundary)
  split
  · rename_i hproblem
    exact .boundary hmaps hmost hruns (hproblem ▸ hboundary)
  · rename_i boundary hplan
    rw [hplan] at hboundary
    refine .accepted hmaps hmost hruns hboundary ?_
    show { s with
      numMaps := s.numMaps.toUInt16.toUInt32
      testLoop := { s.testLoop with boundary := boundary.settings } } = s
    rw [toUInt32_toUInt16 hmost, hboundary.held.1]

/-! ## What follows for the plan -/

/-- Counting all iterations does not overflow. -/
theorem RunPlan.toNat_totalRuns (plan : RunPlan) :
    plan.totalRuns.toNat = plan.numMaps.toNat * plan.numRuns.toNat := by
  -- The factors have 16 and 32 bits, so the product fits into 48.
  have hmaps : plan.numMaps.toNat < 2 ^ 16 := plan.numMaps.toNat_lt
  have hruns : plan.numRuns.toNat < 2 ^ 32 := plan.numRuns.toNat_lt
  have hprod : plan.numMaps.toNat * plan.numRuns.toNat < 2 ^ 16 * 2 ^ 32 :=
    Nat.mul_lt_mul'' hmaps hruns
  rw [totalRuns, UInt64.toNat_mul, UInt16.toNat_toUInt64, UInt32.toNat_toUInt64]
  exact Nat.mod_eq_of_lt (by omega)

/-- Whether a plan has maps to work on, and rounds to work. -/
structure RunPlan.Workable (plan : RunPlan) : Prop where
  maps : plan.numMaps.toNat ≠ 0
  runs : plan.numRuns.toNat ≠ 0

theorem RunnerSection.workable_of_resolve {s : RunnerSection} {path base : String} {plan : RunPlan}
    (h : s.resolve path base = .ok plan) : plan.Workable := by
  have hjudged := s.judged_resolve path base
  rw [h] at hjudged
  cases hjudged with
  | accepted hmaps _ hruns _ hsettings =>
    have hplanMaps : plan.numMaps.toUInt32 = s.numMaps := congrArg RunnerSection.numMaps hsettings
    have hplanRuns : plan.numRuns = s.numRuns := congrArg RunnerSection.numRuns hsettings
    refine ⟨fun hzero => hmaps ?_, fun hzero => hruns ?_⟩
    · rw [← hplanMaps, ← UInt32.toNat_inj, UInt16.toNat_toUInt32, hzero]
      rfl
    · rw [← hplanRuns, ← UInt32.toNat_inj, hzero]
      rfl

namespace LoadSection

variable {s : LoadSection} {plan : LoadPlan}

/-- The plan of the load runner is that of its runner's section. -/
theorem resolve_run (h : s.resolve = .ok plan) :
    s.runner.resolve keyPath baseName = .ok plan.run := by
  unfold resolve at h
  split at h
  · cases h
  split at h
  · cases h
  split at h
  · cases h
  · rename_i hrun
    cases h
    exact hrun

theorem workable_of_resolve (h : s.resolve = .ok plan) : plan.run.Workable :=
  RunnerSection.workable_of_resolve (resolve_run h)

end LoadSection

end GridBench
