/-
  GridBench.Proofs.Settings.Runnable

  Which sections of the load runner can be carried out.  The settings that are
  checked stand in a list (`LoadSetting.checked`), each with its full key path,
  with what makes its value usable (`Met`), and with what a refusal demands of
  it.  A section is accepted if all of them are met, and then its plan holds the
  section as it was; otherwise the first one that is not met is refused
  (`LoadSection.Judged`).  Main statement: `accepts_runnable`.
-/
import GridBench.Proofs.Number.Value
import GridBench.Proofs.Settings.Plan

namespace GridBench

/-- The section of the load runner that a plan was made of. -/
def LoadPlan.settings (p : LoadPlan) : LoadSection := ⟨p.run.settings, p.numEntries, p.payloadSize⟩

/-! ## The settings that are checked -/

/-- A setting of the load runner that is checked. -/
inductive LoadSetting where
  | numEntries
  | payloadSize
  | numMaps
  | numRuns
  | chainLength
  | fillPercentage
deriving DecidableEq, Repr

namespace LoadSetting

/-- The settings in the order in which they are checked. -/
def checked : List LoadSetting :=
  [numEntries, payloadSize, numMaps, numRuns, chainLength, fillPercentage]

/-- The full key path of a setting. -/
def path : LoadSetting → String
  | numEntries => "map-tests.load.num-entries-per-map"
  | payloadSize => "map-tests.load.payload-size-bytes"
  | numMaps => "map-tests.load.num-maps"
  | numRuns => "map-tests.load.num-runs"
  | chainLength => "map-tests.load.test-loop.boundary.operation-chain.length"
  | fillPercentage =>
    "map-tests.load.test-loop.boundary.operation-chain.boundary-definition.upper.map-fill-percentage"

/-- Whether the value that a section has for the setting can be used.  Those of the boundary loop
    need to be only if it is selected. -/
def Met (s : LoadSection) : LoadSetting → Prop
  | numEntries => 1 ≤ s.numEntriesPerMap.toNat
  | payloadSize => 1 ≤ s.payloadSizeBytes.toNat
  | numMaps => 1 ≤ s.runner.numMaps.toNat ∧ s.runner.numMaps.toNat ≤ 65535
  | numRuns => 1 ≤ s.runner.numRuns.toNat
  | chainLength => s.runner.testLoop.loopType = .boundary →
      1 ≤ s.runner.testLoop.boundary.operationChain.length.toNat
  | fillPercentage => s.runner.testLoop.loopType = .boundary →
      ∃ v, s.runner.testLoop.boundary.operationChain.boundaries.upper.mapFillPercentage.value? =
        some v ∧ 0 < v ∧ v ≤ 1

/-- What the refusal of a section demands of the setting. -/
def demand (s : LoadSection) : LoadSetting → String
  | numMaps =>
    if s.runner.numMaps = 0 then "be at least 1"
    else "not exceed 65535, got " ++ toString s.runner.numMaps.toNat
  | fillPercentage => "be in (0, 1], got " ++ FloatStyle.plain.render
      s.runner.testLoop.boundary.operationChain.boundaries.upper.mapFillPercentage
  | _ => "be at least 1"

/-- The failure that names the setting and says what is demanded of it. -/
def refusal (x : LoadSetting) (s : LoadSection) : Fault :=
  .config (x.path ++ " must " ++ x.demand s)

variable {s : LoadSection} {x : LoadSetting} {text message more : String}

theorem refusal_of_eq (hdemand : x.demand s = text) (h : message = x.path ++ " must " ++ text) :
    .config message = x.refusal s := by
  rw [refusal, hdemand, h]

/-- A demand that goes on with a number. -/
theorem refusal_of_append (hdemand : x.demand s = text ++ more)
    (h : message = x.path ++ " must " ++ text) : .config (message ++ more) = x.refusal s := by
  rw [refusal, hdemand, h, ← String.append_assoc]

/-! What is demanded of the number of maps and of the percentage. -/

theorem fault_noMaps (hzero : s.runner.numMaps = 0) :
    (SettingsProblem.noMaps LoadSection.keyPath).fault = numMaps.refusal s := by
  have hdemand : numMaps.demand s = "be at least 1" := if_pos hzero
  exact refusal_of_eq hdemand (by decide)

theorem fault_tooManyMaps (hne : s.runner.numMaps ≠ 0) :
    (SettingsProblem.tooManyMaps LoadSection.keyPath s.runner.numMaps).fault =
      numMaps.refusal s := by
  have hdemand : numMaps.demand s =
    "not exceed 65535, got " ++ toString s.runner.numMaps.toNat := if_neg hne
  exact refusal_of_append hdemand (by decide)

theorem fault_fillPercentage : (SettingsProblem.fillPercentage LoadSection.keyPath
      s.runner.testLoop.boundary.operationChain.boundaries.upper.mapFillPercentage).fault =
    fillPercentage.refusal s := by
  have hdemand : fillPercentage.demand s = "be in (0, 1], got " ++ FloatStyle.plain.render
    s.runner.testLoop.boundary.operationChain.boundaries.upper.mapFillPercentage := rfl
  exact refusal_of_append hdemand (by decide)

end LoadSetting

namespace LoadSection

open LoadSetting

variable {s : LoadSection}

/-- The first setting of a section that is not met. -/
def FirstUnmet (s : LoadSection) (x : LoadSetting) : Prop :=
  ∃ before after, checked = before ++ x :: after ∧ (∀ y ∈ before, y.Met s) ∧ ¬ x.Met s

/-- How a section is judged: it is accepted and its plan holds it, or its first setting that is not
    met is refused. -/
inductive Judged (s : LoadSection) : Except SettingsProblem LoadPlan → Prop
  | accepted {plan : LoadPlan} : (∀ x : LoadSetting, x.Met s) → plan.settings = s →
      plan.run.boundary.lower = none → Judged s (.ok plan)
  | refused {x : LoadSetting} {problem : SettingsProblem} : s.FirstUnmet x →
      problem.fault = x.refusal s → Judged s (.error problem)

/-! ## Sections of the load runner -/

theorem one_le_toNat_iff {n : UInt32} : 1 ≤ n.toNat ↔ n ≠ 0 := by
  rw [Nat.one_le_iff_ne_zero, ne_eq, ne_eq, ← UInt32.toNat_inj]
  rfl

theorem met_fillPercentage_iff : LoadSetting.fillPercentage.Met s ↔
    (s.runner.testLoop.loopType = .boundary → BoundarySection.isFillPercentage
      s.runner.testLoop.boundary.operationChain.boundaries.upper.mapFillPercentage = true) := by
  rw [BoundarySection.isFillPercentage, Bool.and_eq_true, Binary.exists_value_iff]
  rfl

theorem met_numMaps_iff : LoadSetting.numMaps.Met s ↔
    s.runner.numMaps ≠ 0 ∧ s.runner.numMaps ≤ 65535 := by
  rw [← one_le_toNat_iff, UInt32.le_iff_toNat_le]
  rfl

/-- What is refused in the section of the runner comes behind the load runner's own settings. -/
theorem exists_firstUnmet (hentries : LoadSetting.numEntries.Met s)
    (hpayload : LoadSetting.payloadSize.Met s) {problem : SettingsProblem}
    (h : s.runner.Judged keyPath baseName (.error problem)) : ∃ x : LoadSetting, s.FirstUnmet x ∧
      problem.fault = x.refusal s := by
  cases h with
  | noMaps hzero =>
    refine ⟨.numMaps, ⟨[numEntries, payloadSize], _, rfl, by simp [hentries, hpayload],
      fun h => (met_numMaps_iff.mp h).1 hzero⟩, ?_⟩
    exact fault_noMaps hzero
  | tooManyMaps hne hmany =>
    refine ⟨.numMaps, ⟨[numEntries, payloadSize], _, rfl, by simp [hentries, hpayload],
      fun h => UInt32.not_lt.mpr (met_numMaps_iff.mp h).2 hmany⟩, ?_⟩
    exact fault_tooManyMaps hne
  | noRuns hne hmost hzero =>
    have hmaps := met_numMaps_iff.mpr ⟨hne, hmost⟩
    exact ⟨.numRuns, ⟨[numEntries, payloadSize, numMaps], _, rfl,
      by simp [hentries, hpayload, hmaps], fun h => one_le_toNat_iff.mp h hzero⟩, rfl⟩
  | emptyBaseName _ _ _ hempty => exact absurd hempty (by decide)
  | boundary hne hmost hruns hboundary =>
    have hmaps := met_numMaps_iff.mpr ⟨hne, hmost⟩
    have hruns : LoadSetting.numRuns.Met s := one_le_toNat_iff.mpr hruns
    cases hboundary with
    | emptyChain hselected hzero =>
      refine ⟨.chainLength, ⟨[numEntries, payloadSize, numMaps, numRuns], _, rfl,
        by simp [hentries, hpayload, hmaps, hruns], fun h => ?_⟩, rfl⟩
      exact one_le_toNat_iff.mp (h (eq_of_beq hselected)) hzero
    | fillPercentage hselected hlength hfill =>
      have hchain : LoadSetting.chainLength.Met s := fun _ => one_le_toNat_iff.mpr hlength
      refine ⟨.fillPercentage, ⟨[numEntries, payloadSize, numMaps, numRuns, chainLength], _, rfl,
        by simp [hentries, hpayload, hmaps, hruns, hchain], fun h => ?_⟩, ?_⟩
      · exact Bool.false_ne_true
          (hfill.symm.trans (met_fillPercentage_iff.mp h (eq_of_beq hselected)))
      · exact fault_fillPercentage

/-- An accepted section of the runner meets what is left to be met. -/
theorem met_of_accepted (hentries : LoadSetting.numEntries.Met s)
    (hpayload : LoadSetting.payloadSize.Met s) {run : RunPlan}
    (h : s.runner.Judged keyPath baseName (.ok run)) : ∀ x : LoadSetting, x.Met s := by
  cases h with
  | accepted hne hmost hruns hboundary _ =>
    cases hboundary with
    | accepted hselected _ _ =>
      intro x
      cases x with
      | numEntries => exact hentries
      | payloadSize => exact hpayload
      | numMaps => exact met_numMaps_iff.mpr ⟨hne, hmost⟩
      | numRuns => exact one_le_toNat_iff.mpr hruns
      | chainLength => exact fun h => one_le_toNat_iff.mpr (hselected (beq_iff_eq.mpr h)).1
      | fillPercentage => exact met_fillPercentage_iff.mpr fun h => (hselected (beq_iff_eq.mpr h)).2

theorem judged_resolve (s : LoadSection) : s.Judged s.resolve := by
  unfold resolve
  split
  · rename_i hzero
    exact .refused ⟨[], _, rfl, by simp, fun h => one_le_toNat_iff.mp h hzero⟩ rfl
  rename_i hne
  have hentries : LoadSetting.numEntries.Met s := one_le_toNat_iff.mpr hne
  split
  · rename_i hzero
    exact .refused ⟨[numEntries], _, rfl, by simpa, fun h => one_le_toNat_iff.mp h hzero⟩ rfl
  rename_i hne
  have hpayload : LoadSetting.payloadSize.Met s := one_le_toNat_iff.mpr hne
  have hrunner := s.runner.judged_resolve keyPath baseName
  split
  · rename_i problem hproblem
    rw [hproblem] at hrunner
    obtain ⟨x, hx, hmessage⟩ := exists_firstUnmet hentries hpayload hrunner
    exact .refused hx hmessage
  · rename_i run hrun
    rw [hrun] at hrunner
    have hmet := met_of_accepted hentries hpayload hrunner
    cases hrunner with
    | accepted _ _ _ hboundary hsettings =>
      exact .accepted hmet (by rw [LoadPlan.settings, hsettings]) hboundary.held.2

/-- Which sections are accepted, and what becomes of them, whatever numbers and texts they hold: the
    plan of an accepted section holds all settings of the section, it has no lower boundary, and its
    number of iterations is the product of the numbers of maps and rounds.  A section is refused
    for the first setting that is not met, which the refusal names by its full key path. -/
theorem accepts_runnable (s : LoadSection) :
    ((∃ plan, s.resolve = .ok plan) ↔ ∀ x : LoadSetting, x.Met s) ∧
    (∀ problem, s.resolve = .error problem → ∃ x : LoadSetting, s.FirstUnmet x ∧
      problem.fault = x.refusal s) ∧
    ∀ plan, s.resolve = .ok plan → plan.settings = s ∧ plan.run.boundary.lower = none ∧
      plan.run.totalRuns.toNat = s.runner.numMaps.toNat * s.runner.numRuns.toNat := by
  have hjudged := s.judged_resolve
  generalize s.resolve = r at hjudged
  cases hjudged with
  | @accepted plan hmet hsettings hlower =>
    refine ⟨iff_of_true ⟨plan, rfl⟩ hmet, (fun _ h => nomatch h), fun _ h => ?_⟩
    cases h
    refine ⟨hsettings, hlower, ?_⟩
    rw [RunPlan.toNat_totalRuns, ← hsettings]
    exact congrArg (· * _) (UInt16.toNat_toUInt32 _).symm
  | @refused x problem hx hmessage =>
    refine ⟨iff_of_false ?_ fun h => ?_, fun _ h => ?_, fun _ h => nomatch h⟩
    · rintro ⟨plan, h⟩
      cases h
    · obtain ⟨_, _, _, _, hnot⟩ := hx
      exact hnot (h x)
    · cases h
      exact ⟨x, hx, hmessage⟩

end LoadSection

end GridBench
