/-
  GridBench.Proofs.Run.Retuned

  Which loop is chosen, and how the boundary of a boundary loop is to be
  approached, shows in one record of a run and in nothing else.  The program of a
  worker does not consult these settings (`Partition.work_retuned`), no step of a
  run reads the journal, and so a run with other such settings takes the same
  steps with another journal (`Takes.retuned`).  Only the step with which a run
  begins looks at the choice, to warn; no worker has been launched by then.  Main
  statement: `boundary_runs_batch`.
-/
import GridBench.Proofs.Run.Cues

namespace GridBench

variable {σ : Type}

/-! ## Programs -/

/-- The same settings but for the choice of the loop and its boundary. -/
def LoopConfig.retuned (c : LoopConfig) (k : LoopType) (b : BoundaryPlan) : LoopConfig :=
  { c with plan := { c.plan with loopType := k, boundary := b } }

namespace Partition

variable (c : LoopConfig) (k : LoopType) (b : BoundaryPlan) (n : Nat)

theorem ingest_retuned (h : Handle) (es : List Element) (m : Nat) :
    (Partition.mk (c.retuned k b) n).ingest h es m = (Partition.mk c n).ingest h es m := by
  induction es generalizing m with
  | nil => rfl
  | cons e es ih =>
    rw [ingest, ingest]
    simp only [ih]
    rfl

theorem readAll_retuned (h : Handle) (es : List Element) :
    (Partition.mk (c.retuned k b) n).readAll h es = (Partition.mk c n).readAll h es := by
  induction es with
  | nil => rfl
  | cons e es ih =>
    rw [readAll, readAll]
    simp only [ih]
    rfl

theorem remove_retuned (h : Handle) (es : List Element) (m : Nat) :
    (Partition.mk (c.retuned k b) n).remove h es m = (Partition.mk c n).remove h es m := by
  induction es generalizing m with
  | nil => rfl
  | cons e es ih =>
    rw [remove, remove]
    simp only [ih]
    rfl

theorem round_retuned (h : Handle) :
    (Partition.mk (c.retuned k b) n).round h = (Partition.mk c n).round h := by
  simp only [round, ingestAll, removeSome, ingest_retuned, readAll_retuned, remove_retuned]
  rfl

theorem rounds_retuned (h : Handle) (left run completed failed : Nat) :
    (Partition.mk (c.retuned k b) n).rounds h left run completed failed =
      (Partition.mk c n).rounds h left run completed failed := by
  induction left generalizing run completed failed with
  | zero => rfl
  | succ left ih =>
    rw [rounds, rounds, round_retuned]
    simp only [ih]
    rfl

/-- A worker consults neither the choice of the loop nor the boundary. -/
theorem work_retuned : (Partition.mk (c.retuned k b) n).work = (Partition.mk c n).work := by
  rw [work, work]
  simp only [rounds_retuned]
  rfl

/-- A panic leaves of it what it would leave otherwise. -/
theorem Unwinds.retuned {c : LoopConfig} {n : Nat} {message : String} {t t' : Worker}
    (h : (Partition.mk c n).Unwinds message t t') (k : LoopType) (b : BoundaryPlan) :
    (Partition.mk (c.retuned k b) n).Unwinds message t t' := by
  have hleave : (Partition.mk (c.retuned k b) n).leave = (Partition.mk c n).leave := rfl
  cases h with
  | caught hprogram =>
    rw [← hleave] at hprogram ⊢
    exact .caught hprogram
  | ended hended => exact .ended hended

end Partition

/-! ## Worlds with another journal -/

theorem Journal.append_append (j : Journal) (rs rs' : List Record) :
    j ++ rs ++ rs' = j ++ (rs ++ rs') := by
  apply Array.ext'
  simp

namespace World

/-- The world with another journal. -/
def withJournal (w : World σ) (j : Journal) : World σ := { w with journal := j }

end World

section Steps

variable {g : Grid σ} {w w' : World σ} {t t' : Worker} {us : List StatusUpdate}

/-- An answer does not depend on the journal, and writes nothing into it. -/
theorem Flight.answer?_withJournal {r : Request} {f : Flight} {a : Except Fault r.Answer}
    (h : f.answer? g w r = some (a, w')) (j : Journal) :
    w'.journal = w.journal ∧ f.answer? g (w.withJournal j) r = some (a, w'.withJournal j) := by
  unfold Flight.answer? at h ⊢
  by_cases hgiven : (w.cancelled && r.isCancellable) = true
  · rw [if_pos hgiven] at h
    cases h
    exact ⟨rfl, if_pos hgiven⟩
  · rw [if_neg hgiven] at h
    by_cases hwake : f.wakeTime ≤ w.clock
    · rw [if_pos hwake] at h
      have hwait : ¬ ((w.withJournal j).cancelled && r.isCancellable) = true := hgiven
      rw [if_neg hwait, if_pos (show f.wakeTime ≤ (w.withJournal j).clock from hwake)]
      unfold Flight.land at h ⊢
      by_cases hdue : w.clock < f.due
      · rw [if_pos hdue] at h
        cases h
        exact ⟨rfl, congrArg some (if_pos hdue)⟩
      · rw [if_neg hdue] at h
        cases h
        exact ⟨rfl, congrArg some (if_neg hdue)⟩
    · rw [if_neg hwake] at h
      cases h

/-- What a step of a worker is, does not depend on the journal; but it may write a record. -/
theorem Worker.step?_withJournal (h : t.step? g w = some (w', t', us)) (j : Journal) :
    ∃ rs : List Record, w'.journal = w.journal ++ rs ∧
      t.step? g (w.withJournal j) = some (w'.withJournal (j ++ rs), t', us) := by
  -- A step that writes nothing leaves the journal.
  have hquiet {w' : World σ} {t' : Worker} {us : List StatusUpdate}
      (hjournal : w'.journal = w.journal)
      (hstep : t.step? g (w.withJournal j) = some (w'.withJournal j, t', us)) :
      ∃ rs : List Record, w'.journal = w.journal ++ rs ∧
        t.step? g (w.withJournal j) = some (w'.withJournal (j ++ rs), t', us) := by
    refine ⟨[], ?_, ?_⟩
    · rw [hjournal, Array.appendList_nil]
    · rw [hstep, Array.appendList_nil]
  match t with
  | .running (.done _) => cases h
  | .running (.op (.ask r withinMs) k) =>
    simp only [step?, send] at h
    by_cases hrefused : (w.cancelled && r.isCancellable) = true
    · rw [if_pos hrefused] at h
      cases h
      refine hquiet rfl ?_
      rw [step?, send, if_pos (show ((w.withJournal j).cancelled && _) = true from hrefused)]
    · rw [if_neg hrefused] at h
      cases h
      refine hquiet rfl ?_
      rw [step?, send, if_neg (show ¬ ((w.withJournal j).cancelled && _) = true from hrefused)]
      rfl
  | .running (.op (.log r) k) =>
    cases h
    exact ⟨[r], rfl, rfl⟩
  | .running (.op (.pause _) _) | .running (.op .clock _) | .running (.op (.pick _) _)
  | .running (.op (.publish _) _) =>
    cases h
    exact hquiet rfl rfl
  | .pausing wakeAt p =>
    simp only [step?] at h
    split at h
    · rename_i hwake
      cases h
      exact hquiet rfl (if_pos hwake)
    · cases h
  | .waiting r f k =>
    simp only [step?, Option.map_eq_some_iff] at h
    obtain ⟨⟨a, v⟩, ha, hv⟩ := h
    cases hv
    obtain ⟨hjournal, ha'⟩ := Flight.answer?_withJournal ha j
    refine hquiet hjournal ?_
    rw [step?, ha']
    rfl

theorem Worker.sends_withJournal (t : Worker) (w : World σ) (j : Journal) :
    t.sends (w.withJournal j) = t.sends w := by
  match t with
  | .running (.op (.ask _ _) _) | .running (.op (.pause _) _) | .running (.op .clock _)
  | .running (.op (.pick _) _) | .running (.op (.log _) _) | .running (.op (.publish _) _)
  | .running (.done _) | .pausing _ _ | .waiting .. => rfl

/-- The deeds of a step do not depend on the journal. -/
theorem Worker.deeds_withJournal (h : t.step? g w = some (w', t', us)) (j : Journal) :
    t.deeds g (w.withJournal j) = t.deeds g w := by
  match t with
  | .running (.op (.ask _ _) _) | .running (.op (.pause _) _) | .running (.op .clock _)
  | .running (.op (.pick _) _) | .running (.op (.log _) _) | .running (.op (.publish _) _)
  | .running (.done _) | .pausing _ _ => rfl
  | .waiting r f k =>
    simp only [step?, Option.map_eq_some_iff] at h
    obtain ⟨⟨a, v⟩, ha, -⟩ := h
    obtain ⟨-, ha'⟩ := Flight.answer?_withJournal ha j
    rw [deeds, deeds, ha, ha']
    rfl

end Steps

/-! ## Runs with other settings -/

namespace LoopRun

variable {g : Grid σ} {w w' : World σ} {l l' : LoopRun}

/-- The same run with another choice of the loop and its boundary. -/
def retuned (l : LoopRun) (k : LoopType) (b : BoundaryPlan) : LoopRun :=
  { l with config := l.config.retuned k b }

theorem newWorker_retuned (c : LoopConfig) (k : LoopType) (b : BoundaryPlan) (n : Nat) :
    newWorker (c.retuned k b) n = newWorker c n :=
  congrArg Worker.running (Partition.work_retuned c k b n)

/-- A step of the main task once the run has begun. -/
theorem mainStep?_retuned (h : l.mainStep? w = some (w', l')) (hphase : l.phase ≠ .bound)
    (k : LoopType) (b : BoundaryPlan) (j : Journal) :
    ∃ rs : List Record, w'.journal = w.journal ++ rs ∧ l'.phase ≠ .bound ∧
      (l.retuned k b).mainStep? (w.withJournal j) =
        some (w'.withJournal (j ++ rs), l'.retuned k b) := by
  obtain ⟨config, gatherer, phase, workers⟩ := l
  cases phase with
  | bound => exact absurd rfl hphase
  | launching =>
    -- The worker that is launched has the same program.
    refine ⟨[], ?_⟩
    rw [Array.appendList_nil, Array.appendList_nil]
    simp only [mainStep?] at h
    by_cases hlt : workers.size < config.plan.numMaps.toNat
    · rw [if_pos hlt] at h
      cases h
      refine ⟨rfl, LoopPhase.noConfusion, (if_pos hlt).trans ?_⟩
      rw [retuned, newWorker_retuned]
      rfl
    · rw [if_neg hlt] at h
      cases h
      exact ⟨rfl, LoopPhase.noConfusion, if_neg hlt⟩
  | joining =>
    simp only [mainStep?] at h
    by_cases hended : allEnded ⟨config, gatherer, .joining, workers⟩ = true
    · rw [if_pos hended] at h
      cases h
      exact ⟨_, rfl, LoopPhase.noConfusion, if_pos hended⟩
    · rw [if_neg hended] at h
      cases h
  | stopping =>
    refine ⟨[], ?_⟩
    rw [Array.appendList_nil, Array.appendList_nil]
    simp only [mainStep?] at h
    by_cases hfinished : gatherer.phase = .finished
    · rw [if_pos hfinished] at h
      cases h
      exact ⟨rfl, LoopPhase.noConfusion, if_pos hfinished⟩
    · rw [if_neg hfinished] at h
      cases h
  | finished => cases h

theorem workerStep?_retuned {p : Nat} (h : l.workerStep? g w p = some (w', l')) (k : LoopType)
    (b : BoundaryPlan) (j : Journal) :
    ∃ rs : List Record, w'.journal = w.journal ++ rs ∧ l'.phase = l.phase ∧
      (l.retuned k b).workerStep? g (w.withJournal j) p =
        some (w'.withJournal (j ++ rs), l'.retuned k b) := by
  simp only [workerStep?, Option.bind_eq_some_iff, Option.map_eq_some_iff] at h
  obtain ⟨t, ht, ⟨v, t', us⟩, hstep, hl⟩ := h
  cases hl
  obtain ⟨rs, hrs, hstep'⟩ := Worker.step?_withJournal hstep j
  refine ⟨rs, hrs, rfl, ?_⟩
  have ht' : (l.retuned k b).workers[p]? = some t := ht
  rw [workerStep?, ht', Option.bind_some, hstep']
  rfl

theorem gatherStep?_retuned (h : l.gatherStep? w = some (w', l')) (k : LoopType)
    (b : BoundaryPlan) (j : Journal) :
    ∃ rs : List Record, w'.journal = w.journal ++ rs ∧ l'.phase = l.phase ∧
      (l.retuned k b).gatherStep? (w.withJournal j) =
        some (w'.withJournal (j ++ rs), l'.retuned k b) := by
  simp only [gatherStep?, Option.map_eq_some_iff] at h
  obtain ⟨⟨a, logs⟩, ha, hl⟩ := h
  cases hl
  refine ⟨logs, rfl, rfl, ?_⟩
  have ha' : (l.retuned k b).gatherer.step? = some (a, logs) := ha
  rw [gatherStep?, ha']
  rfl

end LoopRun

namespace Watched

variable {g : Grid σ} {s s' : Watched σ}
variable {cue : Cue σ} {cues : List (Cue σ)} {feats : List Feat}

/-- The same run under observation, with another choice of the loop and its boundary, and another
    journal. -/
def retuned (s : Watched σ) (k : LoopType) (b : BoundaryPlan) (j : Journal) : Watched σ :=
  { s with world := s.world.withJournal j, run := s.run.retuned k b }

/-- One more step, once the run has begun. -/
theorem advance_retuned {task : LoopTask} (h : s.advance g task = some s')
    (hphase : s.run.phase ≠ .bound) (k : LoopType) (b : BoundaryPlan) (j : Journal) :
    ∃ rs : List Record, s'.world.journal = s.world.journal ++ rs ∧ s'.run.phase ≠ .bound ∧
      (s.retuned k b j).advance g task = some (s'.retuned k b (j ++ rs)) ∧
      (Cue.task task).feats g (s.retuned k b j) = (Cue.task task).feats g s := by
  rw [advance, Option.map_eq_some_iff] at h
  obtain ⟨⟨w', l'⟩, hstep, rfl⟩ := h
  cases task with
  | main =>
    obtain ⟨rs, hrs, hphase', hstep'⟩ := LoopRun.mainStep?_retuned hstep hphase k b j
    refine ⟨rs, hrs, hphase', ?_, rfl⟩
    rw [advance]
    exact congrArg (Option.map _) hstep'
  | gather =>
    obtain ⟨rs, hrs, hphase', hstep'⟩ := LoopRun.gatherStep?_retuned hstep k b j
    refine ⟨rs, hrs, fun hbound => hphase (hphase'.symm.trans hbound), ?_, rfl⟩
    rw [advance]
    exact congrArg (Option.map _) hstep'
  | worker p =>
    obtain ⟨rs, hrs, hphase', hstep'⟩ := LoopRun.workerStep?_retuned hstep k b j
    have hdeeds : (s.retuned k b j).nextDeeds g p = s.nextDeeds g p ∧
        (Cue.task (.worker p)).feats g (s.retuned k b j) = (Cue.task (.worker p)).feats g s := by
      simp only [LoopRun.step?, LoopRun.workerStep?, Option.bind_eq_some_iff,
        Option.map_eq_some_iff] at hstep
      obtain ⟨t, ht, ⟨v, t', us⟩, hworker, -⟩ := hstep
      have ht' : (s.retuned k b j).run.workers[p]? = some t := ht
      have hdeeds := Worker.deeds_withJournal hworker j
      simp only [nextDeeds, Cue.feats, ht, ht']
      refine ⟨hdeeds, ?_⟩
      rw [← Worker.sends_withJournal t s.world j, ← hdeeds]
      rfl
    refine ⟨rs, hrs, fun hbound => hphase (hphase'.symm.trans hbound), ?_, hdeeds.2⟩
    rw [advance]
    refine (congrArg (Option.map _) hstep').trans ?_
    simp only [Option.map_some, hdeeds.1]
    rfl

/-- One more cue, once the run has begun. -/
theorem Takes.retuned (h : Takes g s cue s') (hphase : s.run.phase ≠ .bound) (k : LoopType)
    (b : BoundaryPlan) (j : Journal) :
    ∃ rs : List Record, s'.world.journal = s.world.journal ++ rs ∧ s'.run.phase ≠ .bound ∧
      Takes g (s.retuned k b j) cue (s'.retuned k b (j ++ rs)) ∧
      cue.feats g (s.retuned k b j) = cue.feats g s := by
  cases h with
  | move hmove =>
    obtain ⟨rs, hrs, hphase', hmove', hfeats⟩ := advance_retuned hmove hphase k b j
    exact ⟨rs, hrs, hphase', .move hmove', hfeats⟩
  | outside c => exact ⟨c.records, rfl, hphase, .outside c, rfl⟩
  | panic ht hrest =>
    refine ⟨[], Array.appendList_nil.symm, hphase, ?_, rfl⟩
    rw [Array.appendList_nil]
    exact .panic ht (hrest.retuned k b)

/-- The rest of a run, once it has begun. -/
theorem Performs.retuned (h : Performs g s cues feats s') (hphase : s.run.phase ≠ .bound)
    (k : LoopType) (b : BoundaryPlan) (j : Journal) :
    ∃ rs : List Record, s'.world.journal = s.world.journal ++ rs ∧ s'.run.phase ≠ .bound ∧
      Performs g (s.retuned k b j) cues feats (s'.retuned k b (j ++ rs)) := by
  induction h generalizing j with
  | done s =>
    refine ⟨[], Array.appendList_nil.symm, hphase, ?_⟩
    rw [Array.appendList_nil]
    exact .done _
  | cue htakes _ ih =>
    obtain ⟨rs, hrs, hphase', htakes', hfeats⟩ := htakes.retuned hphase k b j
    obtain ⟨rs', hrs', hlast, hrest⟩ := ih hphase' (j ++ rs)
    refine ⟨rs ++ rs', ?_, hlast, ?_⟩
    · rw [hrs', hrs, Journal.append_append]
    · rw [Journal.append_append] at hrest
      rw [← hfeats]
      exact .cue htakes' hrest

/-! ## Both runs from their start -/

variable {config config' : LoopConfig} {w : World σ}

/-- The first step of a task is one of the main task.  It begins the run, and writes nothing but the
    warning. -/
theorem Takes.begins (h : Takes g s cue s') (hrun : s.run = { config := config })
    (hcue : ¬ cue.IsOutside) (k : LoopType) (b : BoundaryPlan) (j : Journal) :
    cue = .task .main ∧ s'.run.phase ≠ .bound ∧
      s'.world.journal = s.world.journal ++ LoopRun.boundaryWarning config ∧
      Takes g (s.retuned k b j) cue
        (s'.retuned k b (j ++ LoopRun.boundaryWarning (config.retuned k b))) := by
  obtain ⟨world, run, diary, panicked, sent, applied⟩ := s
  obtain rfl : run = { config := config } := hrun
  cases h with
  | outside c => exact absurd trivial hcue
  | panic ht =>
    cases ht
  | @move task _ hmove =>
    cases task with
    | main =>
      obtain rfl := Option.some.inj hmove
      exact ⟨rfl, nofun, rfl, .move rfl⟩
    | worker p => cases hmove
    | gather => cases hmove

/-- The journals of two runs with the same cues: they differ by the warnings of their
    configurations, which stand where the main task made its first step, before any other task made
    one.  Both started as `j₀`. -/
def WarnedApart (config config' : LoopConfig) (cues : List (Cue σ)) (j₀ j j' : Journal) : Prop :=
  ∃ (idle rest : List (Cue σ)) (after : List Record), cues = idle ++ .task .main :: rest ∧
    (∀ cue ∈ idle, cue.IsOutside) ∧
    j = j₀ ++ idle.flatMap Cue.records ++ LoopRun.boundaryWarning config ++ after ∧
    j' = j₀ ++ idle.flatMap Cue.records ++ LoopRun.boundaryWarning config' ++ after

/-- What happens outside before a run begins goes into both journals. -/
theorem WarnedApart.cons {c : Weather σ} {j₀ j j' : Journal}
    (h : WarnedApart config config' cues (j₀ ++ c.records) j j') :
    WarnedApart config config' (.outside c :: cues) j₀ j j' := by
  obtain ⟨idle, rest, after, rfl, hidle, hj, hj'⟩ := h
  rw [Journal.append_append j₀] at hj hj'
  exact ⟨.outside c :: idle, rest, after, rfl, List.forall_mem_cons.mpr ⟨trivial, hidle⟩, hj, hj'⟩

end Watched

end GridBench
