/-
  GridBench.Proofs.Run.Isolation

  What a partition has to do with the faults of other maps: nothing.  If the
  map index is part of the names, no two partitions of a run share a map, so on
  a scripted grid each worker is secluded (`Isolated`), whatever becomes of the
  others.  Only the time at which a worker looks for an answer that comes too
  late is up to them, which matters if its map takes longer than it may.  Main
  statement: `partition_isolated`.
-/
import GridBench.Proofs.Run.Counts
import GridBench.Proofs.Run.Secluded

namespace GridBench

/-- Time passes outside, and what is drawn next may be anything. -/
def Outside.dealing (σ : Type) : Outside σ where
  stirs w w' := ∃ moment draws, w' = { w.passUntil moment with draws := draws }
  passes w moment := ⟨moment, w.draws, rfl⟩
  panics := False

/-! ## Streams of equal draws -/

namespace Terms

/-- What a stream is made of stays whatever is drawn from it. -/
theorem stream_after (d : Draws) (b : Deed) :
    (drawn.after d b).source = d.source ∧ (drawn.after d b).rule = d.rule := by
  obtain ⟨e, r⟩ := b
  cases e with
  | pick p => cases p <;> exact ⟨rfl, rfl⟩
  | ask | pause | clock | log | publish => exact ⟨rfl, rfl⟩

theorem stream_afterAll (d : Draws) (ds : List Deed) :
    (drawn.afterAll d ds).source = d.source ∧ (drawn.afterAll d ds).rule = d.rule := by
  induction ds generalizing d with
  | nil => exact ⟨rfl, rfl⟩
  | cons b ds ih =>
    obtain ⟨hsource, hrule⟩ := stream_after d b
    exact ⟨(ih _).1.trans hsource, (ih _).2.trans hrule⟩

/-- Equal draws come from any stream of them, if they come to the same. -/
theorem grants_of_even {n : Nat} {d d' : Draws} {ds : List Deed} (hrule : d.rule = d'.rule)
    (hd : ∀ i, d.source i = n) (hd' : ∀ i, d'.source i = n) (hds : drawn.Grants d ds) :
    drawn.Grants d' ds := by
  induction ds generalizing d d' with
  | nil => trivial
  | cons b ds ih =>
    obtain ⟨hsource, hkept⟩ := stream_after d b
    obtain ⟨hsource', hkept'⟩ := stream_after d' b
    refine ⟨?_, ih (hkept.trans (hrule.trans hkept'.symm)) (fun i => hsource ▸ hd i)
      (fun i => hsource' ▸ hd' i) hds.2⟩
    have hb := hds.1
    obtain ⟨e, r⟩ := b
    cases e with
    | pick p =>
      refine Eq.trans hb ?_
      cases p with
      | exactly _ => rfl
      | below k =>
        show d.rule.below k (d.source d.used) = d'.rule.below k (d'.source d'.used)
        rw [hrule, hd, hd']
    | ask | pause | clock | log | publish => trivial

end Terms

/-! ## A secluded worker in a run -/

namespace Watched

variable {config : LoopConfig} {s s' : Watched ScriptedGrid} {p : Nat} {s₀ : MemoryStore}

/-- What holds of a run at any time if nobody else has the map of the partition `p`, whose store was
    `s₀` at first. -/
structure Isolated (config : LoopConfig) (p : Nat) (s₀ : MemoryStore) (s : Watched ScriptedGrid) :
    Prop where
  sound : s.Sound config
  running : s.world.cancelled = false
  unpanicked : ∀ q, s.panicked q = false
  intact : s.world.grid.script.destroyAfter = none
  held : ∀ q h, ((teamOf config q).hand (s.diary q)).held = some h →
    h.map = (teamOf config q).mapName
  secluded : (teamOf config p).Secluded s₀ (s.world.grid.store (teamOf config p).mapName)
    (workerOf config s.run.workers p) (s.diary p)

/-- A step of a worker. -/
theorem Isolated.works (h : Isolated config p s₀ s) (hawake : s.Awake p)
    (hmaps : ∀ q, q ≠ p → (teamOf config q).mapName ≠ (teamOf config p).mapName) {q : Nat}
    (hmove : s.advance ScriptedGrid.grid (.worker q) = some s') : Isolated config p s₀ s' := by
  have hsound := h.sound.step (.move (S := .still _) hmove)
  rw [Awake, h.sound.config_eq] at hawake
  obtain ⟨t, t', us, ht, hstep, hworkers, -, hpanicked, hdiary⟩ := step?_of_advance hmove
  have hmove' := (Worker.move_of_step? hstep).1
  generalize t.deeds ScriptedGrid.grid s.world = ds at hmove' hdiary
  have hq : q < s.run.workers.size := (Array.getElem?_eq_some_iff.mp ht).1
  have hplays : Proc.Plays (teamOf config q).work (s.diary q) t.program := by
    obtain ⟨program, hplays, hprogram⟩ := (h.sound.engaged q t ht).plays
    rwa [partition, h.sound.config_eq, ← hprogram (h.unpanicked q)] at hplays
  have hself : s'.diary q = s.diary q ++ ds := by
    rw [hdiary, note_diary_self, h.unpanicked q]
    rfl
  have hscript := Partition.script_of_move h.intact hmove'
  refine ⟨hsound, hmove'.world.1.trans h.running, fun r => hpanicked ▸ h.unpanicked r,
    hscript ▸ h.intact, fun r hd hh => ?_, ?_⟩
  · by_cases hr : r = q
    · subst hr
      rw [hself] at hh
      exact Partition.held_of_move hplays (h.held r) hmove' hd hh
    · rw [hdiary, note_diary_other hr] at hh
      exact h.held r hd hh
  · rw [hworkers, workerOf_setIfInBounds hq]
    by_cases hpq : p = q
    · subst hpq
      have hsecluded := h.secluded
      rw [workerOf_of_getElem? ht] at hsecluded hawake
      rw [Function.update_self, hself]
      exact hsecluded.move (h.held p) h.intact h.running hawake hmove'
    · rw [Function.update_of_ne hpq, hdiary, note_diary_other hpq,
        Partition.store_other hplays (h.held q) h.intact hmove' (hmaps q (Ne.symm hpq))]
      exact h.secluded

/-- The worker does not oversleep if its map comes in time. -/
theorem Isolated.awake (h : Isolated config p s₀ s)
    (hdelay : s₀.faults.getMapDelayMs ≤ config.getMapTimeoutMs) : s.Awake p := by
  rw [Awake, h.sound.config_eq]
  exact h.secluded.awake (h.held p) hdelay _

/-- What one step preserves. -/
theorem Isolated.step (h : Isolated config p s₀ s) (hawake : s.Awake p)
    (hmaps : ∀ q, q ≠ p → (teamOf config q).mapName ≠ (teamOf config p).mapName)
    (hstep : Step ScriptedGrid.grid (.dealing _) s s') : Isolated config p s₀ s' := by
  have hsound := h.sound.step hstep
  cases hstep with
  | panic hpanics => exact hpanics.elim
  | stir hstir =>
    obtain ⟨moment, draws, rfl⟩ := hstir
    exact ⟨hsound, h.running, h.unpanicked, h.intact, h.held, h.secluded⟩
  | @move task _ hmove =>
    by_cases htask : ∃ q, task = .worker q
    · obtain ⟨q, rfl⟩ := htask
      exact h.works hawake hmaps hmove
    · obtain ⟨hworkers, hdiary, hpanicked, hgrid, -, hrun⟩ :=
        h.sound.aside_of_advance hmove fun q hq => htask ⟨q, hq⟩
      refine ⟨hsound, hrun.trans h.running, fun q => hpanicked ▸ h.unpanicked q, hgrid ▸ h.intact,
        fun q => hdiary ▸ h.held q, ?_⟩
      rw [hworkers, hdiary, hgrid]
      exact h.secluded

/-- What a whole run preserves. -/
theorem Isolated.reaches (h : Isolated config p s₀ s)
    (hmaps : ∀ q, q ≠ p → (teamOf config q).mapName ≠ (teamOf config p).mapName)
    (hs : ReachesAwake ScriptedGrid.grid (.dealing _) p s s') : Isolated config p s₀ s' := by
  induction hs with
  | refl => exact h
  | tail _ hstep ih => exact ih.step hstep.1 hmaps hstep.2

/-- What the worker has done when the run has finished. -/
theorem Isolated.ended (h : Isolated config p s₀ s) (hphase : s.run.phase = .finished)
    (hp : p < config.plan.numMaps.toNat) :
    (∃ crash, Proc.Plays (teamOf config p).work (s.diary p) (.done crash)) ∧
      s.world.grid.store (teamOf config p).mapName = Terms.served.afterAll s₀ (s.diary p) := by
  obtain ⟨t, ht, hended⟩ := h.sound.exists_ended hphase hp
  have hsecluded := h.secluded
  rw [workerOf_of_getElem? ht] at hsecluded
  refine ⟨⟨t.crash?, Worker.program_of_hasEnded hended ▸ hsecluded.plays⟩, ?_⟩
  have hfinds := hsecluded.finds
  cases t with
  | running _ => exact hfinds
  | pausing | waiting => cases hended

/-- A run in which every draw is the same. -/
structure Even {σ : Type} (n : Nat) (s : Watched σ) : Prop where
  source : ∀ i, s.world.draws.source i = n
  rule : s.world.draws.rule = .modulo
  drawn : ∀ q, Terms.drawn.Grants { source := fun _ => n, used := 0 } (s.diary q)

theorem Even.turn {n : Nat} {task : LoopTask} (h : s.Even n)
    (hturn : Turn ScriptedGrid.grid s task s') : s'.Even n := by
  cases hturn with
  | begun | launched | joins | stops | finishes | writes | closes | deserted =>
    exact ⟨h.source, h.rule, h.drawn⟩
  | @works q t t' w ds ht hmove =>
    obtain ⟨hgrants, hdraws⟩ := hmove.drawn
    refine ⟨fun i => ?_, ?_, fun r => ?_⟩
    · show w.draws.source i = n
      rw [hdraws, (Terms.stream_afterAll _ _).1]
      exact h.source i
    · show w.draws.rule = .modulo
      rw [hdraws, (Terms.stream_afterAll _ _).2]
      exact h.rule
    · show Terms.drawn.Grants _ ((s.note q ds).diary r)
      by_cases hr : r = q
      · subst hr
        rw [note_diary_self]
        split
        · exact h.drawn r
        · obtain ⟨hsource, hrule⟩ := Terms.stream_afterAll
            { source := fun _ => n, used := 0 } (s.diary r)
          exact (Terms.grants_append _ _ _ _).mpr ⟨h.drawn r, Terms.grants_of_even
            (h.rule.trans hrule.symm) h.source (congrFun hsource) hgrants⟩
      · rw [note_diary_other hr]
        exact h.drawn r

end Watched

end GridBench
