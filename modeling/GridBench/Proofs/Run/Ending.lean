/-
  GridBench.Proofs.Run.Ending

  Every run comes to its end, whatever its grid answers and in whichever order
  its tasks move, if time passes and no worker panics.  Each move takes the
  main task to its next phase, a worker into the run or nearer to its end, or
  an update out of the queue; and as long as the run has not finished, some
  task can move once it has waited long enough.
-/
import GridBench.Store.Memory
import GridBench.Proofs.Run.Sound
import GridBench.Proofs.Run.Inevitable

namespace GridBench

namespace Watched

variable {σ : Type} {config : LoopConfig} {g : Grid σ} {S : Outside σ} {s s' : Watched σ}

/-- A step of a task, after whatever happens outside before it. -/
def Moves (g : Grid σ) (S : Outside σ) (s s' : Watched σ) : Prop :=
  ∃ w task, Relation.ReflTransGen S.stirs s.world w ∧
    ({ s with world := w } : Watched σ).advance g task = some s'

theorem reaches_stir {w : World σ} (h : Relation.ReflTransGen S.stirs s.world w) :
    Reaches g S s { s with world := w } := by
  induction h with
  | refl => exact .refl
  | tail _ hstir ih => exact ih.tail (.stir hstir)

/-- All that happens if only time passes. -/
theorem passUntil_of_still {w w' : World σ}
    (h : Relation.ReflTransGen (Outside.still σ).stirs w w') :
    ∃ moment, w' = w.passUntil moment := by
  induction h with
  | refl => exact ⟨0, by simp [World.passUntil]⟩
  | tail _ hstir ih =>
    obtain ⟨moment, rfl⟩ := ih
    obtain ⟨later, rfl⟩ := hstir
    exact ⟨max moment later, by simp [World.passUntil, Nat.max_assoc]⟩

theorem Moves.reaches (h : Moves g S s s') : Reaches g S s s' := by
  obtain ⟨w, task, hw, hmove⟩ := h
  exact (reaches_stir hw).tail (.move hmove)

theorem reaches_of_moves (h : Relation.ReflTransGen (Moves g S) s s') : Reaches g S s s' := by
  induction h with
  | refl => exact .refl
  | tail _ hmove ih => exact ih.trans hmove.reaches

/-! ## Getting nearer to the end -/

/-- The number of phases still to come. -/
def phasesLeft : LoopPhase → Nat
  | .bound => 4
  | .launching => 3
  | .joining => 2
  | .stopping => 1
  | .finished => 0

/-- The place of a worker, before and after a move: it is launched, or nearer to its end. -/
inductive Sooner : Option Worker → Option Worker → Prop
  | launched (t : Worker) : Sooner (some t) none
  | nearer {t' t : Worker} : t'.Nearer t → Sooner (some t') (some t)

theorem sooner_wf : WellFounded Sooner := by
  -- Below a worker that is there, the order is that of the workers.
  have hsome : ∀ t, Acc Sooner (some t) := by
    intro t
    induction t using Worker.nearer_wf.induction with
    | _ t ih =>
      refine ⟨_, fun u hu => ?_⟩
      cases hu with
      | nearer hnearer => exact ih _ hnearer
  refine ⟨fun u => ?_⟩
  cases u with
  | some t => exact hsome t
  | none =>
    refine ⟨_, fun u hu => ?_⟩
    cases hu with
    | launched t => exact hsome t

/-- What is left to do in a run of `n` workers. -/
def remaining (n : Nat) (s : Watched σ) : Nat × (Fin n → Option Worker) × Nat :=
  (phasesLeft s.run.phase, fun p => s.run.workers[p.val]?, s.run.gatherer.queue.length)

/-- The order in which there is less and less to do. -/
def Less (n : Nat) : Nat × (Fin n → Option Worker) × Nat → Nat × (Fin n → Option Worker) × Nat →
    Prop :=
  Prod.Lex (· < ·) (Prod.Lex (Pi.Lex (· < ·) (fun {_} => Sooner)) (· < ·))

theorem less_wf (n : Nat) : WellFounded (Less n) :=
  Nat.lt_wfRel.wf.prod_lex ((lex_wf sooner_wf).prod_lex Nat.lt_wfRel.wf)

/-- There is less to do once a worker is nearer to its end, whatever it has sent. -/
theorem less_of_nearer {n p : Nat} {t t' : Worker} (hn : p < n)
    (ht : s.run.workers[p]? = some t) (hnearer : t'.Nearer t)
    (hworkers : s'.run.workers = s.run.workers.setIfInBounds p t')
    (hphase : s'.run.phase = s.run.phase) : Less n (s'.remaining n) (s.remaining n) := by
  have hp : p < s.run.workers.size := (Array.getElem?_eq_some_iff.mp ht).1
  rw [remaining, remaining, hphase, hworkers]
  -- The queue may grow, but the worker counts before it.
  refine Prod.Lex.right _ (Prod.Lex.left _ _ (lex_of_component ⟨p, hn⟩ ?_ fun q hq => ?_))
  · simp only [Array.getElem?_setIfInBounds_self_of_lt hp, ht]
    exact .nearer hnearer
  · have hne : p ≠ q.val := fun hq' => hq (Fin.ext hq'.symm)
    simp only [Array.getElem?_setIfInBounds_ne hne]

/-- There is less to do after each step of a task. -/
theorem Sound.less_of_turn {task : LoopTask} (h : s.Sound config) (hturn : Turn g s task s') :
    Less s.numMaps (s'.remaining s.numMaps) (s.remaining s.numMaps) := by
  cases hturn with
  | begun hphase hl =>
    -- The run goes on with a fresh queue, but the phase counts first.
    rw [(h.run_eq hphase).1, LoopRun.begin_fresh] at hl
    cases hl
    refine Prod.Lex.left _ _ ?_
    rw [hphase]
    exact Nat.lt_succ_self 3
  | launched hphase hlt =>
    refine Prod.Lex.right _ (Prod.Lex.left _ _ (lex_of_component ⟨_, hlt⟩ ?_ fun q hq => ?_))
    · simp only [Array.getElem?_push_size, Array.getElem?_size]
      exact .launched _
    · have hne : q.val ≠ s.run.workers.size := fun hq' => hq (Fin.ext hq')
      simp only [Array.getElem?_push, if_neg hne]
  | joins hphase hge => exact Prod.Lex.left _ _ (by simp [phasesLeft, hphase])
  | stops hphase hall => exact Prod.Lex.left _ _ (by simp [phasesLeft, hphase])
  | finishes hphase hfin => exact Prod.Lex.left _ _ (by simp [phasesLeft, hphase])
  | works ht hmove =>
    have hn := Nat.lt_of_lt_of_le (Array.getElem?_eq_some_iff.mp ht).1 h.size_le
    exact less_of_nearer hn ht hmove.nearer rfl rfl
  | writes hphase hqueue =>
    exact Prod.Lex.right _ (Prod.Lex.right _ (by simp [hqueue]))
  | closes hphase hqueue => exact Prod.Lex.right _ (Prod.Lex.right _ (by simp [hqueue]))
  | deserted _ _ hsenders =>
    rw [h.senders] at hsenders
    cases hsenders

/-- There is less to do after a panic. -/
theorem Sound.less_of_panic {p : Nat} {message : String} {t t' : Worker} (h : s.Sound config)
    (ht : s.run.workers[p]? = some t) (hpanic : (s.partition p).Unwinds message t t')
    (hworkers : s'.run.workers = s.run.workers.setIfInBounds p t')
    (hphase : s'.run.phase = s.run.phase) :
    Less s.numMaps (s'.remaining s.numMaps) (s.remaining s.numMaps) :=
  less_of_nearer (Nat.lt_of_lt_of_le (Array.getElem?_eq_some_iff.mp ht).1 h.size_le) ht
    (Worker.nearer_of_unwinds hpanic) hworkers hphase

/-! ## Being able to move -/

theorem moves_of_step? {w : World σ} (task : LoopTask)
    (hw : Relation.ReflTransGen S.stirs s.world w)
    (h : (s.run.step? g w task).isSome = true) : ∃ s', Moves g S s s' := by
  have hadvance : (({ s with world := w } : Watched σ).advance g task).isSome = true := by
    rw [advance, Option.isSome_map]
    exact h
  obtain ⟨s', hs'⟩ := Option.isSome_iff_exists.mp hadvance
  exact ⟨s', w, task, hw, hs'⟩

/-- A worker that has not ended can move after a while. -/
theorem exists_moves_worker {p : Nat} {t : Worker} (ht : s.run.workers[p]? = some t)
    (hended : t.hasEnded = false) : ∃ s', Moves g S s s' := by
  obtain ⟨moment, hmoment⟩ := Worker.exists_step? (g := g) hended
  have hstep := hmoment (s.world.passUntil moment) (Nat.le_max_right _ _)
  refine moves_of_step? (.worker p) (.single (S.passes s.world moment)) ?_
  rw [LoopRun.step?, LoopRun.workerStep?, ht, Option.bind_some, Option.isSome_map]
  exact hstep

theorem Sound.isSome_step?_main (h : s.Sound config) (hphase : s.run.phase = .bound ∨
    s.run.phase = .launching ∨ s.run.phase = .joining ∧ s.run.allEnded = true ∨
    s.run.phase = .stopping ∧ s.run.gatherer.phase = .finished) :
    (s.run.step? g s.world .main).isSome = true := by
  rw [LoopRun.step?, LoopRun.mainStep?]
  rcases hphase with hphase | hphase | ⟨hphase, hall⟩ | ⟨hphase, hfin⟩
  · rw [hphase, (h.run_eq hphase).1, LoopRun.begin_fresh]
    rfl
  · simp only [hphase]
    split <;> rfl
  · simp only [hphase, hall, if_true]
    rfl
  · simp only [hphase, hfin, if_true]
    rfl

/-- As long as a run has not finished, one of its tasks can move at once, or it waits for its
    workers, one of which has not ended. -/
theorem Sound.ready (h : s.Sound config) :
    s.run.phase = .finished ∨ (∃ task, (s.run.step? g s.world task).isSome = true) ∨
      s.run.phase = .joining ∧
        ∃ (p : Nat) (t : Worker), s.run.workers[p]? = some t ∧ t.hasEnded = false := by
  cases h.stage with
  | bound hphase => exact .inr (.inl ⟨_, h.isSome_step?_main (.inl hphase)⟩)
  | opened pending hphase _ _ =>
    rcases hphase with hphase | ⟨hphase, _⟩
    · exact .inr (.inl ⟨_, h.isSome_step?_main (.inr (.inl hphase))⟩)
    -- The main task waits for its workers unless all of them have ended.
    · cases hall : s.run.allEnded with
      | true => exact .inr (.inl ⟨_, h.isSome_step?_main (.inr (.inr (.inl ⟨hphase, hall⟩)))⟩)
      | false =>
        obtain ⟨p, hp, hended⟩ := Array.all_eq_false.mp hall
        exact .inr (.inr ⟨hphase, p, _, Array.getElem?_eq_getElem hp, by simpa using hended⟩)
  | stopping pending hphase _ _ hgatherer _ =>
    refine .inr (.inl ⟨.gather, ?_⟩)
    -- The queue holds the stop at least.
    rw [LoopRun.step?, LoopRun.gatherStep?, Option.isSome_map, hgatherer, Gatherer.step?]
    simp only [if_true]
    cases pending with
    | nil => rfl
    | cons u pending => cases u <;> rfl
  | closed hphase _ _ hgatherer _ =>
    rcases hphase with hphase | hphase
    · have hfin : s.run.gatherer.phase = .finished := by rw [hgatherer]
      exact .inr (.inl ⟨_, h.isSome_step?_main (.inr (.inr (.inr ⟨hphase, hfin⟩)))⟩)
    · exact .inl hphase

/-- As long as a run has not finished, one of its tasks can move after a while. -/
theorem Sound.exists_moves (h : s.Sound config) :
    s.run.phase = .finished ∨ ∃ s', Moves g S s s' := by
  rcases h.ready (g := g) with hphase | ⟨task, htask⟩ | ⟨_, p, t, ht, hended⟩
  · exact .inl hphase
  · exact .inr (moves_of_step? task .refl htask)
  · exact .inr (exists_moves_worker ht hended)

/-- Every run finishes. -/
theorem Sound.inevitable_finished (h : s.Sound config) :
    Inevitable (Moves g S) (fun s => s.run.phase = .finished ∧ s.Sound config) s := by
  have hpreserve : ∀ s s' : Watched σ, s.Sound config → Moves g S s s' → s'.Sound config :=
    fun s s' h hmove => h.reaches hmove.reaches
  refine Inevitable.and_invariant ?_ h hpreserve
  -- The invariant keeps the number of workers, so there is one order for the whole run.
  refine Inevitable.of_wellFounded (less_wf config.plan.numMaps.toNat)
    (remaining config.plan.numMaps.toNat) h (fun s s' h hmove => ?_) fun s h => h.exists_moves
  refine ⟨hpreserve s s' h hmove, ?_⟩
  obtain ⟨w, task, _, hmove⟩ := hmove
  have hless := (h.stir w).less_of_turn (turn_of_advance hmove)
  rw [← h.numMaps_eq]
  exact hless

/-! ## A sample -/

/-- The settings of a small run: two partitions that share one map, and two rounds. -/
def sampleSettings : RunnerSection := { numMaps := 2, numRuns := 2, appendMapIndex := false }

/-- Two elements with their serialised forms. -/
def sampleItems : List (String × Json) :=
  [("0", LoadElement.toJson ⟨"0", "x"⟩), ("1", LoadElement.toJson ⟨"1", "x"⟩)]

/-- A small run with the given plan. -/
def sampleConfig (plan : RunPlan) : LoopConfig where
  runId := ⟨1⟩
  source := "loadrunner"
  plan := plan
  check := LoadElement.shape
  elements := sampleItems.map fun i => ⟨.ok i.1, .ok i.2⟩
  client := ⟨"client"⟩
  getMapTimeoutMs := 1000

/-- The sample run with one other element, whose serialised form cannot be had. -/
def unwritableConfig (plan : RunPlan) : LoopConfig :=
  { sampleConfig plan with elements := [⟨.ok "1", .error (.json "odd id 1")⟩] }

/-- The settings are usable. -/
theorem exists_samplePlan : ∃ plan, sampleSettings.resolve "map-tests.load" "load" = .ok plan :=
  ⟨_, rfl⟩

/-- A run comes to a state in which it has finished. -/
theorem exists_finished (g : Grid σ) (S : Outside σ) (config : LoopConfig) (w : World σ) :
    ∃ s, Reaches g S (start config w) s ∧ s.run.phase = .finished := by
  obtain ⟨s, hs, hphase, _⟩ := (sound_start config w).inevitable_finished.exists_reaches
  exact ⟨s, reaches_of_moves hs, hphase⟩

end Watched

end GridBench
