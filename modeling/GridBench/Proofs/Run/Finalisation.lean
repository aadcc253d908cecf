/-
  GridBench.Proofs.Run.Finalisation

  When a run is marked as finished.  A worker finds the first status in the
  table; the mark is not set as long as a worker has not ended or an update is
  on its way; and the mark is the last write.  Each statement holds in every
  state a run can reach, whatever its grid answers, whatever happens to the
  world around it, and whichever workers panic.
-/
import GridBench.Proofs.Run.Ending
import GridBench.Proofs.Settings.Plan

namespace GridBench

open LoopRun

/-- The table holds what a run publishes before its workers start. -/
structure Announced (plan : RunPlan) (t : Progress) : Prop where
  numMaps : t[numMapsKey]? = some (.ofNat plan.numMaps.toNat)
  numRuns : t[numRunsKey]? = some (.ofNat plan.numRuns.toNat)
  totalRuns : t[totalRunsKey]? = some (.ofNat (plan.numMaps.toNat * plan.numRuns.toNat))
  runnerFinished : ∃ b, t[runnerFinishedKey]? = some (.bool b)

namespace Announced

/-- Finishing leaves the rest of the first status as it is. -/
theorem insert_runnerFinished {plan : RunPlan} {t : Progress} (h : Announced plan t)
    (b : Bool) : Announced plan (t.insert runnerFinishedKey (.bool b)) where
  numMaps := (Progress.getElem?_insert_of_ne _ (by decide) _).trans h.numMaps
  numRuns := (Progress.getElem?_insert_of_ne _ (by decide) _).trans h.numRuns
  totalRuns := (Progress.getElem?_insert_of_ne _ (by decide) _).trans h.totalRuns
  runnerFinished := ⟨b, Progress.getElem?_insert_self _ _ _⟩

end Announced

namespace LoopRun

theorem announced_firstTable (plan : RunPlan) :
    Announced plan (firstTable plan) ∧
      (firstTable plan)[runnerFinishedKey]? = some (.bool false) := by
  have hfinished : (firstTable plan)[runnerFinishedKey]? = some (.bool false) :=
    Progress.getElem?_insert_self _ _ _
  refine ⟨⟨?_, ?_, ?_, false, hfinished⟩, hfinished⟩
  -- Each value outlasts the insertions behind it, since the keys differ.
  · refine (Progress.getElem?_insert_of_ne _ (by decide) _).trans ?_
    refine (Progress.getElem?_insert_of_ne _ (by decide) _).trans ?_
    refine (Progress.getElem?_insert_of_ne _ (by decide) _).trans ?_
    exact Progress.getElem?_insert_self _ _ _
  · refine (Progress.getElem?_insert_of_ne _ (by decide) _).trans ?_
    refine (Progress.getElem?_insert_of_ne _ (by decide) _).trans ?_
    exact Progress.getElem?_insert_self _ _ _
  · refine (Progress.getElem?_insert_of_ne _ (by decide) _).trans ?_
    rw [← plan.toNat_totalRuns]
    exact Progress.getElem?_insert_self _ _ _

end LoopRun

namespace Watched

variable {σ : Type} {config : LoopConfig} {g : Grid σ} {S : Outside σ} {s s' : Watched σ}

/-- Counts are written under keys of their own. -/
theorem Sound.writes_general (h : s.Sound config) {key : String} (hkey : key ∈ generalKeys) :
    ∀ u ∈ s.sent, Progress.writes key u = false := by
  intro u hu
  obtain ⟨p, _, n, rfl | rfl⟩ := h.sent_tells u hu
  · have hne : completedKey (s.partition p).number ≠ key :=
      fun h => completedKey_not_mem_generalKeys _ (h ▸ hkey)
    simp [Progress.writes, hne]
  · have hne : failedKey (s.partition p).number ≠ key :=
      fun h => failedKey_not_mem_generalKeys _ (h ▸ hkey)
    simp [Progress.writes, hne]

theorem Stage.applied_prefix (h : s.Stage) : s.applied <+: s.sent := by
  cases h with
  | bound _ _ _ hsent happlied =>
    rw [hsent, happlied]
  | opened pending _ _ hsent => exact ⟨pending, hsent.symm⟩
  | stopping pending _ _ _ _ hsent => exact ⟨pending, hsent.symm⟩
  | closed _ _ _ _ hsent =>
    rw [hsent]

/-- The counts applied so far leave the first status as it is. -/
theorem Sound.announced_countsTable (h : s.Sound config) :
    Announced s.run.config.plan s.countsTable ∧
      s.countsTable[runnerFinishedKey]? = some (.bool false) := by
  obtain ⟨hfirst, hfalse⟩ := announced_firstTable s.run.config.plan
  have hkeep : ∀ key ∈ generalKeys,
      s.countsTable[key]? = (firstTable s.run.config.plan)[key]? := fun key hkey =>
    Progress.getElem?_writeAll_of_forall fun u hu =>
      h.writes_general hkey u (h.stage.applied_prefix.subset hu)
  have hfinished := hkeep runnerFinishedKey (by decide)
  exact ⟨{
    numMaps := (hkeep numMapsKey (by decide)).trans hfirst.numMaps
    numRuns := (hkeep numRunsKey (by decide)).trans hfirst.numRuns
    totalRuns := (hkeep totalRunsKey (by decide)).trans hfirst.totalRuns
    runnerFinished := ⟨false, hfinished.trans hfalse⟩ }, hfinished.trans hfalse⟩

/-! ## After the last write -/

/-- The workers and the gatherer's task have ended. -/
structure Closed (s : Watched σ) : Prop where
  phase : s.run.phase = .stopping ∨ s.run.phase = .finished
  allEnded : s.run.allEnded = true
  gatherer : s.run.gatherer.phase = .finished

theorem Closed.hasEnded (h : s.Closed) {p : Nat} {t : Worker} (ht : s.run.workers[p]? = some t) :
    t.hasEnded = true := by
  obtain ⟨hp, rfl⟩ := Array.getElem?_eq_some_iff.mp ht
  exact Array.all_eq_true.mp h.allEnded p hp

/-- Nothing but the main task moves any more, and it leaves the gatherer alone. -/
theorem Closed.step (h : s.Closed) (hstep : Step g S s s') :
    s'.Closed ∧ s'.run.gatherer = s.run.gatherer := by
  cases hstep with
  | stir _ => exact ⟨⟨h.phase, h.allEnded, h.gatherer⟩, rfl⟩
  -- A worker that has ended neither panics nor moves.
  | panic _ ht hpanic =>
    exact absurd (h.hasEnded ht) (by simp [hpanic.not_hasEnded])
  | move hmove =>
    cases turn_of_advance hmove with
    | begun hphase => simpa [hphase] using h.phase
    | launched hphase => simpa [hphase] using h.phase
    | joins hphase => simpa [hphase] using h.phase
    | stops hphase => simpa [hphase] using h.phase
    | finishes _ _ => exact ⟨⟨.inr rfl, h.allEnded, h.gatherer⟩, rfl⟩
    | works ht hw => exact absurd (h.hasEnded ht) (by simp [hw.not_hasEnded])
    | writes hphase => simp [h.gatherer] at hphase
    | closes hphase => simp [h.gatherer] at hphase
    | deserted hphase => simp [h.gatherer] at hphase

theorem Closed.reaches (h : s.Closed) (hs : Reaches g S s s') :
    s'.Closed ∧ s'.run.gatherer = s.run.gatherer := by
  induction hs with
  | refl => exact ⟨h, rfl⟩
  | tail _ hstep ih =>
    obtain ⟨hclosed, hgatherer⟩ := ih.1.step hstep
    exact ⟨hclosed, hgatherer.trans ih.2⟩

/-- The mark is set only behind everything else. -/
theorem Sound.closed_of_finished (h : s.Sound config)
    (hfin : s.run.gatherer.table[runnerFinishedKey]? = some (.bool true)) :
    s.Closed ∧ s.run.workers.size = s.numMaps ∧ s.applied = s.sent := by
  have hcounts := h.announced_countsTable.2
  -- In every stage but the last, the table holds the mark as the first status left it, if at all.
  cases h.stage with
  | bound _ hgatherer =>
    rw [hgatherer] at hfin
    cases hfin
  | opened _ _ hgatherer =>
    rw [hgatherer] at hfin
    exact absurd (hfin.symm.trans hcounts) (by simp)
  | stopping _ _ _ _ hgatherer =>
    rw [hgatherer] at hfin
    exact absurd (hfin.symm.trans hcounts) (by simp)
  | closed hphase hsize hall hgatherer hsent =>
    exact ⟨⟨hphase, hall, by rw [hgatherer]⟩, hsize, hsent.symm⟩

/-- The main task ends only behind the mark. -/
theorem Sound.finished_of_phase (h : s.Sound config) (hphase : s.run.phase = .finished) :
    s.run.gatherer.table[runnerFinishedKey]? = some (.bool true) := by
  cases h.stage with
  | bound hp => simp [hphase] at hp
  | opened _ hp => simp [hphase] at hp
  | stopping _ hp => simp [hphase] at hp
  | closed _ _ _ hgatherer =>
    rw [hgatherer]
    exact Progress.getElem?_insert_self _ _ _

theorem Sound.closed_of_phase (h : s.Sound config) (hphase : s.run.phase = .finished) :
    s.Closed ∧ s.run.workers.size = s.numMaps ∧ s.applied = s.sent :=
  h.closed_of_finished (h.finished_of_phase hphase)

/-- When a run has finished, the worker of each of its partitions has ended. -/
theorem Sound.exists_ended (h : s.Sound config) (hphase : s.run.phase = .finished) {p : Nat}
    (hp : p < config.plan.numMaps.toNat) :
    ∃ t, s.run.workers[p]? = some t ∧ t.hasEnded = true := by
  obtain ⟨hclosed, hsize, _⟩ := h.closed_of_phase hphase
  have hlt : p < s.run.workers.size := by
    rw [hsize, h.numMaps_eq]
    exact hp
  have ht := Array.getElem?_eq_getElem hlt
  exact ⟨_, ht, hclosed.hasEnded ht⟩

/-- Once a run has begun, its table holds the first status. -/
theorem Sound.announced (h : s.Sound config) (hphase : s.run.phase ≠ .bound) :
    Announced s.run.config.plan s.run.gatherer.table := by
  have hcounts := h.announced_countsTable.1
  cases h.stage with
  | bound hp => exact absurd hp hphase
  | opened _ _ hgatherer => rw [hgatherer]; exact hcounts
  | stopping _ _ _ _ hgatherer => rw [hgatherer]; exact hcounts
  | closed _ _ _ hgatherer => rw [hgatherer]; exact hcounts.insert_runnerFinished true

/-- The first status is in the table before any worker starts, the mark that the run has finished
    is set after everything else, and nothing is written after it. -/
theorem finished_is_last_write {w : World σ} (hs : Reaches g S (start config w) s) :
    (∀ (p : Nat) (t : Worker), s.run.workers[p]? = some t →
      Announced config.plan s.run.gatherer.table) ∧
    ((∃ p < config.plan.numMaps.toNat, ∀ t : Worker, s.run.workers[p]? = some t →
          t.hasEnded = false) ∨ s.applied ≠ s.sent →
      s.run.gatherer.table[runnerFinishedKey]? ≠ some (.bool true) ∧
      (s.run.phase ≠ .bound → s.run.gatherer.table[runnerFinishedKey]? = some (.bool false))) ∧
    s.applied <+: s.sent ∧
    (s.run.gatherer.table[runnerFinishedKey]? = some (.bool true) →
      ∀ s', Reaches g S s s' → s'.run.gatherer.table = s.run.gatherer.table) := by
  have h := sound_of_reaches hs
  refine ⟨fun p t ht => ?_, fun hwork => ?_, h.stage.applied_prefix, fun hfin s' hs' => ?_⟩
  · rw [← h.config_eq]
    refine h.announced fun hbound => ?_
    -- A run that has not begun has no workers.
    rw [(h.run_eq hbound).1] at ht
    cases ht
  · have hnot : s.run.gatherer.table[runnerFinishedKey]? ≠ some (.bool true) := by
      intro hfin
      obtain ⟨hclosed, hsize, hall⟩ := h.closed_of_finished hfin
      rcases hwork with ⟨p, hp, hopen⟩ | hpending
      -- The worker would have been launched, and would have ended.
      · have hlt : p < s.run.workers.size := by
          rw [hsize, h.numMaps_eq]
          exact hp
        have hget := Array.getElem?_eq_getElem hlt
        exact absurd (hclosed.hasEnded hget) (by simp [hopen _ hget])
      · exact hpending hall
    refine ⟨hnot, fun hphase => ?_⟩
    obtain ⟨b, hb⟩ := (h.announced hphase).runnerFinished
    cases b with
    | false => exact hb
    | true => exact absurd hb hnot
  · rw [((h.closed_of_finished hfin).1.reaches hs').2]

/-- The sample run comes to its last write. -/
theorem finished_is_last_write_sample :
    ∃ plan s, sampleSettings.resolve "map-tests.load" "load" = .ok plan ∧
      Reaches MemoryStore.grid (.still _) (start (sampleConfig plan) { grid := {} }) s ∧
      s.run.gatherer.table[runnerFinishedKey]? = some (.bool true) ∧
      ∀ s', Reaches MemoryStore.grid (.still _) s s' →
        s'.run.gatherer.table = s.run.gatherer.table := by
  obtain ⟨plan, hplan⟩ := exists_samplePlan
  obtain ⟨s, hs, hphase⟩ := exists_finished MemoryStore.grid (.still _) (sampleConfig plan)
    { grid := {} }
  have hfinished := (sound_of_reaches hs).finished_of_phase hphase
  exact ⟨plan, s, hplan, hs, hfinished, (finished_is_last_write hs).2.2.2 hfinished⟩

end Watched

end GridBench
