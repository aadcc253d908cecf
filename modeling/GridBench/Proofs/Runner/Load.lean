/-
  GridBench.Proofs.Runner.Load

  What becomes of a process with the load runner.  The runner, the tasks of its
  run and the clock take their steps in any order (`LoadRunner.Moves`).  In
  each of these orders the runner comes to its end, and what it `Leaves` behind
  is a process in which nothing ran, or one with a single run, which has
  finished (`LoadRunner.inevitable_ended`).  So does the runner that is carried
  out alone (`LoadRunner.leaves_alone`).
-/
import GridBench.Runner.Load
import GridBench.Proofs.Run.Alone
import GridBench.Proofs.Run.Finalisation

namespace GridBench

variable {σ : Type} {g : Grid σ}

namespace LoadSection

/-- Whether a section plans no run: it is refused, or the runner is not enabled. -/
def IsIdle (s : LoadSection) : Prop := ∀ plan, s.resolve = .ok plan → plan.run.enabled = false

theorem isIdle_or (s : LoadSection) :
    s.IsIdle ∨ ∃ plan, s.resolve = .ok plan ∧ plan.run.enabled = true := by
  refine or_iff_not_imp_left.mpr fun hidle => ?_
  simpa only [IsIdle, not_forall, exists_prop, Bool.not_eq_false] using hidle

end LoadSection

namespace LoadRunner

variable {ctx : RunnerContext} {p p' : Process σ} {r r' : LoadRunner} {w : World σ}

/-- A step of the load runner, or of a task of its process, after any time. -/
def Moves (g : Grid σ) (ctx : RunnerContext) (x x' : Process σ × LoadRunner) : Prop :=
  ∃ moment, step? ctx { x.1 with world := x.1.world.passUntil moment } x.2 = some x' ∨
    ∃ task, Process.step? g { x.1 with world := x.1.world.passUntil moment } task = some x'.1 ∧
      x'.2 = x.2

/-- The run that a plan is carried out with, if the elements are drawn in the given world. -/
def planned (ctx : RunnerContext) (plan : LoadPlan) (w : World σ) : LoopConfig :=
  loopConfig ctx plan.run
    (LoadElement.populate plan.numEntries.toNat plan.payloadSize.toNat w.draws).1

/-- What the load runner leaves behind of a process that begins in the given world. -/
inductive Leaves (g : Grid σ) (ctx : RunnerContext) (w : World σ) (p : Process σ) : Prop
  | nothing : ctx.settings.mapTests.load.IsIdle → p.registry = {} → p.world.grid = w.grid →
      Leaves g ctx w p
  | run {plan : LoadPlan} {w' : World σ} {s : Watched σ} :
      ctx.settings.mapTests.load.resolve = .ok plan → plan.run.enabled = true →
      w'.grid = w.grid → w'.cancelled = w.cancelled →
      Watched.Reaches g (.still σ) (.start (planned ctx plan w) w') s → s.run.phase = .finished →
      p.registry = ⟨[⟨.maps, source, ctx.runId, 0⟩]⟩ → p.runs = #[s.run] →
      p.world.grid = s.world.grid → Leaves g ctx w p

/-! ## Before the run -/

/-- If no run is planned, the runner ends at once. -/
theorem prepare_idle (hidle : ctx.settings.mapTests.load.IsIdle) (p : Process σ) (r : LoadRunner) :
    ∃ logs, (prepare ctx p r).1 = p.log logs ∧ (prepare ctx p r).2.phase = .ended := by
  unfold prepare
  cases hresolve : ctx.settings.mapTests.load.resolve with
  | error problem => exact ⟨_, rfl, rfl⟩
  | ok plan =>
    simp only [hidle plan hresolve, Bool.false_eq_true, if_false]
    exact ⟨_, rfl, rfl⟩

/-- The process that hosts a run of the load runner. -/
def host (ctx : RunnerContext) (readiness : Readiness) (w : World σ) (l : LoopRun) : Process σ where
  world := w
  registry := ⟨[⟨.maps, source, ctx.runId, 0⟩]⟩
  readiness := readiness
  runs := #[l]

/-- If a run is planned, the runner binds it and waits for it. -/
theorem prepare_planned {plan : LoadPlan} (hplan : ctx.settings.mapTests.load.resolve = .ok plan)
    (henabled : plan.run.enabled = true) (w : World σ) :
    ∃ readiness w', (prepare ctx { world := w } {}).1 =
        host ctx readiness w' { config := planned ctx plan w } ∧
      (prepare ctx ({ world := w } : Process σ) {}).2.phase = .running 0 ∧
      w'.grid = w.grid ∧ w'.cancelled = w.cancelled := by
  unfold prepare
  simp only [hplan, henabled, if_true]
  exact ⟨_, _, rfl, rfl, rfl, rfl⟩

/-! ## Behind the run -/

/-- The runner comes to its end behind a run that has finished. -/
theorem leaves_conclude {plan : LoadPlan} {w' : World σ} {s : Watched σ} {readiness : Readiness}
    (hplan : ctx.settings.mapTests.load.resolve = .ok plan) (henabled : plan.run.enabled = true)
    (hgrid : w'.grid = w.grid) (hcancelled : w'.cancelled = w.cancelled)
    (hs : Watched.Reaches g (.still σ) (.start (planned ctx plan w) w') s)
    (hphase : s.run.phase = .finished) (r : LoadRunner) :
    Leaves g ctx w (conclude none (host ctx readiness s.world s.run) r).1 :=
  .run hplan henabled hgrid hcancelled hs hphase rfl rfl rfl

/-- What the runner leaves behind if it is carried out alone. -/
theorem leaves_alone (g : Grid σ) (ctx : RunnerContext) (w : World σ) :
    Leaves g ctx w (alone g ctx { world := w } {}).1 := by
  rcases ctx.settings.mapTests.load.isIdle_or with hidle | ⟨plan, hplan, henabled⟩
  · obtain ⟨logs, hp, hphase⟩ := prepare_idle hidle ({ world := w } : Process σ) {}
    have halone : (alone g ctx { world := w } {}).1 = ({ world := w } : Process σ).log logs := by
      unfold alone
      simp only [hphase, hp]
    rw [halone]
    exact .nothing hidle rfl rfl
  · obtain ⟨readiness, w', hp, hphase, hgrid, hcancelled⟩ := prepare_planned hplan henabled w
    obtain ⟨v, l, hrun, hfinished, hgoes⟩ := LoopRun.alone_goes g w' (planned ctx plan w)
    obtain ⟨s, hs, rfl, rfl⟩ := Watched.exists_reaches_of_goes (s := .start _ w') hgoes
    have hwhole : (host ctx readiness w' { config := planned ctx plan w }).runAlone g 0 =
        .ok (host ctx readiness s.world s.run) := by
      rw [Process.runAlone, show (host ctx readiness w' _).runs[0]? = some _ from rfl]
      exact congrArg (Except.map _) hrun
    have halone : (alone g ctx { world := w } {}).1 = (conclude none
        (host ctx readiness s.world s.run) (prepare ctx ({ world := w } : Process σ) {}).2).1 := by
      unfold alone
      simp only [hphase, hp, hwhole]
    rw [halone]
    exact leaves_conclude hplan henabled hgrid hcancelled hs hfinished _

/-! ## In any order -/

/-- The tasks of a process that hosts a run are those of the run. -/
theorem step?_host (readiness : Readiness) (s : Watched σ) (task : LoopTask) :
    (host ctx readiness s.world s.run).step? g ⟨0, task⟩ =
      (s.advance g task).map fun s' => host ctx readiness s'.world s'.run := by
  rw [Process.step?, show (host ctx readiness s.world s.run).runs[0]? = some s.run from rfl,
    Option.bind_some, Watched.advance, Option.map_map]
  cases task with
  | main | worker | gather => rfl

theorem moves_of_moves {readiness : Readiness} {s s' : Watched σ} {r : LoadRunner}
    (h : s.Moves g (.still σ) s') :
    Moves g ctx (host ctx readiness s.world s.run, r)
      (host ctx readiness s'.world s'.run, r) := by
  obtain ⟨w, task, hw, hmove⟩ := h
  obtain ⟨moment, rfl⟩ := Watched.passUntil_of_still hw
  refine ⟨moment, .inr ⟨⟨0, task⟩, ?_, rfl⟩⟩
  exact (step?_host readiness { s with world := s.world.passUntil moment } task).trans
    (congrArg (Option.map _) hmove)

theorem step?_running {readiness : Readiness} {l : LoopRun} {r : LoadRunner}
    (hr : r.phase = .running 0) (w : World σ) :
    step? ctx (host ctx readiness w l) r =
      if l.phase = .finished then some (conclude none (host ctx readiness w l) r) else none := by
  rw [step?, hr]
  rfl

/-- While the runner waits for its run, a step is one of the run, or the run has finished and the
    runner comes to its end. -/
theorem Moves.cases_running {readiness : Readiness} {s : Watched σ} {r : LoadRunner}
    {x : Process σ × LoadRunner} (hr : r.phase = .running 0)
    (h : Moves g ctx (host ctx readiness s.world s.run, r) x) :
    (∃ s', s.Moves g (.still σ) s' ∧ x = (host ctx readiness s'.world s'.run, r)) ∨
      s.run.phase = .finished ∧
        ∃ moment, x = conclude none (host ctx readiness (s.world.passUntil moment) s.run) r := by
  obtain ⟨moment, hstep | ⟨⟨n, task⟩, hstep, hsame⟩⟩ := h
  · right
    have hstep := (step?_running hr _).symm.trans hstep
    split at hstep
    · rename_i hphase
      exact ⟨hphase, moment, (Option.some.inj hstep).symm⟩
    · cases hstep
  · left
    obtain ⟨p, r'⟩ := x
    cases hsame
    cases n with
    | succ n => cases hstep
    | zero =>
      let s' : Watched σ := { s with world := s.world.passUntil moment }
      obtain ⟨s'', hs'', rfl⟩ :=
        Option.map_eq_some_iff.mp ((step?_host readiness s' task).symm.trans hstep)
      exact ⟨s'', ⟨_, task, .single ⟨moment, rfl⟩, hs''⟩, rfl⟩

end LoadRunner

/-- A run that has finished makes no more steps. -/
theorem Watched.Sound.not_moves_of_finished {config : LoopConfig} {s s' : Watched σ} {S : Outside σ}
    (h : s.Sound config) (hphase : s.run.phase = .finished) : ¬ s.Moves g S s' := by
  obtain ⟨hclosed, -⟩ := h.closed_of_phase hphase
  rintro ⟨w, task, -, hmove⟩
  cases turn_of_advance hmove with
  | begun hp | launched hp | joins hp | stops hp | finishes hp => simp [hphase] at hp
  | works ht hw => exact absurd (hclosed.hasEnded ht) (by simp [hw.not_hasEnded])
  | writes hp | closes hp | deserted hp => simp [hclosed.gatherer] at hp

namespace LoadRunner

/-- The runner comes to its end behind the run that it waits for. -/
theorem inevitable_conclude {config : LoopConfig} {w₀ : World σ} {s : Watched σ}
    {readiness : Readiness} {r : LoadRunner} (hr : r.phase = .running 0)
    (hs : Watched.Reaches g (.still σ) (.start config w₀) s) :
    Inevitable (Moves g ctx) (fun x => ∃ s', Watched.Reaches g (.still σ) (.start config w₀) s' ∧
        s'.run.phase = .finished ∧ x = conclude none (host ctx readiness s'.world s'.run) r)
      (host ctx readiness s.world s.run, r) := by
  have hfinish := (Watched.sound_of_reaches hs).inevitable_finished (g := g) (S := .still σ)
  induction hfinish with
  | @here s hdone =>
    -- The run has finished, so that nothing is left but the end of the runner.
    obtain ⟨hphase, hsound⟩ := hdone
    refine .later ⟨_, 0, .inl ((step?_running hr _).trans (if_pos hphase))⟩ fun x hx => .here ?_
    rcases hx.cases_running hr with ⟨s', hmove, -⟩ | ⟨-, moment, rfl⟩
    · exact absurd hmove (hsound.not_moves_of_finished hphase)
    · exact ⟨{ s with world := s.world.passUntil moment }, hs.tail (.stir ⟨moment, rfl⟩), hphase,
        rfl⟩
  | @later s hmove _ ih =>
    obtain ⟨s', hs'⟩ := hmove
    refine .later ⟨_, moves_of_moves hs'⟩ fun x hx => ?_
    rcases hx.cases_running hr with ⟨s'', hmove, rfl⟩ | ⟨hphase, -⟩
    · exact ih s'' hmove (hs.trans hmove.reaches)
    · exact absurd hs' ((Watched.sound_of_reaches hs).not_moves_of_finished hphase)

/-- Whatever the order of the steps, the runner comes to its end. -/
theorem inevitable_ended (g : Grid σ) (ctx : RunnerContext) (w : World σ) :
    Inevitable (Moves g ctx) (fun x => x.2.phase = .ended ∧ Leaves g ctx w x.1)
      ({ world := w }, {}) := by
  -- The first step is that of the runner, since there are no other tasks.
  have hfirst : ∀ x, Moves g ctx ({ world := w }, {}) x →
      ∃ moment, x = prepare ctx { world := w.passUntil moment } {} := by
    rintro ⟨p, r⟩ ⟨moment, hstep | ⟨task, hstep, -⟩⟩
    · exact ⟨moment, (Option.some.inj hstep).symm⟩
    · cases hstep
  refine .later ⟨_, 0, .inl rfl⟩ fun x hx => ?_
  obtain ⟨moment, rfl⟩ := hfirst x hx
  rcases ctx.settings.mapTests.load.isIdle_or with hidle | ⟨plan, hplan, henabled⟩
  · obtain ⟨logs, hp, hphase⟩ := prepare_idle hidle ({ world := w.passUntil moment } : Process σ) {}
    exact .here ⟨hphase, hp ▸ .nothing hidle rfl rfl⟩
  · obtain ⟨readiness, w', hp, hphase, hgrid, hcancelled⟩ :=
      prepare_planned hplan henabled (w.passUntil moment)
    have hend : Inevitable (Moves g ctx) _ (host ctx readiness w' _, _) :=
      inevitable_conclude (s := .start (planned ctx plan w) w') hphase .refl
    refine (show prepare ctx _ {} = (_, _) from Prod.ext hp rfl) ▸ hend.mono ?_
    rintro _ ⟨s, hs, hfinished, rfl⟩
    exact ⟨rfl, leaves_conclude (w := w) hplan henabled hgrid hcancelled hs hfinished _⟩

end LoadRunner

end GridBench
