/-
  GridBench.Proofs.Runner.Repeated

  One load runner that is called again and again.  The settings, the grid and
  the process may be others at each call.  What is reached in a call is what an
  observer notes of it; the runner puts it behind what it has listed before
  (`Observed.Kept`, kept by each move), and begins no list of its own.  Main
  statement: `LoadRunner.milestones_accumulate`.
-/
import Mathlib.Data.List.Induction
import GridBench.Store.Memory
import GridBench.Proofs.Runner.Lifecycle

namespace GridBench.LoadRunner

variable {σ : Type} {g : Grid σ} {S : Outside σ} {ctx : RunnerContext} {r r' : LoadRunner}
  {before reached : List Milestone} {x x' : Observed σ}

/-! ## The milestones of a story -/

/-- The milestones that are passed in a story. -/
def milestonesOf (story : List Event) : List Milestone :=
  story.filterMap fun
    | .did (.reach m) => some m
    | _ => none

theorem milestonesOf_append (story more : List Event) :
    milestonesOf (story ++ more) = milestonesOf story ++ milestonesOf more :=
  List.filterMap_append

theorem milestonesOf_asked (rs : List Request) : milestonesOf (rs.map .asked) = [] := by
  simp [milestonesOf, List.filterMap_map]

/-- The runner lists the milestones that it passes. -/
theorem milestones_carryOut (ds : List Doing) (x : Process σ × LoadRunner) :
    (ds.foldl carryOut x).2.milestones = x.2.milestones ++ milestonesOf (ds.map .did) := by
  induction ds generalizing x with
  | nil => exact (List.append_nil _).symm
  | cons d rest ih =>
    have hfirst : (carryOut x d).2.milestones = x.2.milestones ++ milestonesOf [.did d] := by
      cases d with
      | reach m => rfl
      | signal | draw | bind | log | await | finish => exact (List.append_nil _).symm
    rw [List.foldl_cons, ih, hfirst, List.append_assoc, ← milestonesOf_append]
    rfl

/-- The milestones that a call is to pass with its settings. -/
def due (ctx : RunnerContext) : List Milestone :=
  match ctx.settings.mapTests.load.resolve with
  | .error _ => [.start]
  | .ok plan => if plan.run.enabled then Milestone.all else [.start, .populateConfigComplete]

theorem due_ne_nil (ctx : RunnerContext) : due ctx ≠ [] := by
  unfold due
  split
  · simp
  · split <;> simp [Milestone.all]

/-! ## One call -/

/-- Which of the milestones that are due a runner has passed when it has come so far. -/
def Passed (ctx : RunnerContext) (phase : LoadPhase) (passed : List Milestone) : Prop :=
  match phase with
  | .idle => passed = []
  | .running _ => passed ++ [.testLoopComplete] = due ctx
  | .ended => passed = due ctx

/-- A runner with a list from before has added what it passed since. -/
structure Observed.Kept (ctx : RunnerContext) (before : List Milestone) (x : Observed σ) :
    Prop where
  listed : x.runner.milestones = before ++ milestonesOf x.story
  passed : Passed ctx x.runner.phase (milestonesOf x.story)

theorem passed_opening (p : Process σ) (r : LoadRunner) :
    Passed ctx (prepare ctx p r).2.phase (milestonesOf ((opening ctx p).map .did)) := by
  unfold Passed prepare opening due
  cases ctx.settings.mapTests.load.resolve with
  | error problem => rfl
  | ok plan =>
    cases henabled : plan.run.enabled with
    | false => simp only [henabled]; rfl
    | true => simp only [henabled]; rfl

/-- A step of the runner passes what is due next. -/
theorem passed_step {p p' : Process σ} {passed : List Milestone} (h : Passed ctx r.phase passed)
    (hstep : step? ctx p r = some (p', r')) :
    Passed ctx r'.phase (passed ++ milestonesOf ((doings ctx p r).map .did)) := by
  cases hphase : r.phase with
  | idle =>
    rw [hphase] at h
    rw [step?, hphase] at hstep
    obtain rfl : (prepare ctx p r).2 = r' := congrArg Prod.snd (Option.some.inj hstep)
    rw [show passed = [] from h, doings, hphase]
    exact passed_opening p r
  | running run =>
    rw [hphase] at h
    simp only [step?, hphase] at hstep
    split at hstep
    · cases hstep
    · split at hstep
      · obtain rfl : (conclude none p r).2 = r' := congrArg Prod.snd (Option.some.inj hstep)
        rw [doings, hphase]
        exact h
      · cases hstep
  | ended =>
    simp only [step?, hphase] at hstep
    cases hstep

theorem Observed.Kept.move (h : x.Kept ctx before) (hmove : Observed.Moves g S ctx x x') :
    x'.Kept ctx before := by
  cases hmove with
  | @runner v p r _ hstep =>
    refine ⟨?_, ?_⟩
    · have hr : r.milestones = _ := congrArg (·.2.milestones) (step?_eq hstep)
      rw [hr, milestones_carryOut, h.listed, milestonesOf_append, List.append_assoc]
    · rw [milestonesOf_append]
      exact passed_step h.passed hstep
  | task _ _ =>
    have hstory (rs : List Request) :
        milestonesOf (x.story ++ rs.map .asked) = milestonesOf x.story := by
      rw [milestonesOf_append, milestonesOf_asked, List.append_nil]
    exact ⟨h.listed.trans (congrArg (before ++ ·) (hstory _).symm), (hstory _).symm ▸ h.passed⟩
  | panic _ _ _ _ _ => exact ⟨h.listed, h.passed⟩

theorem Observed.Kept.run (h : x.Kept ctx before)
    (hrun : Relation.ReflTransGen (Observed.Moves g S ctx) x x') : x'.Kept ctx before := by
  induction hrun with
  | refl => exact h
  | tail _ hmove ih => exact ih.move hmove

/-- A call of the runner on some process, from its begin to its end, and the milestones that are
    noted in it. -/
inductive Call (ctx : RunnerContext) (r r' : LoadRunner) (reached : List Milestone) : Prop
  | returns {σ : Type} {g : Grid σ} {S : Outside σ} {p : Process σ} {x : Observed σ} :
      Relation.ReflTransGen (Observed.Moves g S ctx) ⟨p, { r with phase := .idle }, []⟩ x →
      x.runner = r' → r'.phase = .ended → milestonesOf x.story = reached → Call ctx r r' reached

/-- A call adds to the list what is reached in it, which the settings decide. -/
theorem Call.milestones_eq (h : Call ctx r r' reached) :
    r'.milestones = r.milestones ++ reached ∧ reached = due ctx := by
  obtain @⟨σ, g, S, p, x, hrun, rfl, hphase, rfl⟩ := h
  have hbegin : Observed.Kept ctx r.milestones ⟨p, { r with phase := .idle }, []⟩ :=
    ⟨(List.append_nil _).symm, rfl⟩
  obtain ⟨hlisted, hpassed⟩ := hbegin.run hrun
  rw [hphase] at hpassed
  exact ⟨hlisted, hpassed⟩

/-- If a run is planned, the runner comes to wait for it, whatever it has listed before. -/
theorem prepare_waits {plan : LoadPlan} (hplan : ctx.settings.mapTests.load.resolve = .ok plan)
    (henabled : plan.run.enabled = true) (w : World σ) (r : LoadRunner) :
    ∃ w' r', prepare ctx { world := w } r =
      (host ctx ⟨0, true⟩ w' { config := planned ctx plan w }, r') ∧ r'.phase = .running 0 := by
  unfold prepare
  simp only [hplan, henabled, if_true]
  exact ⟨_, _, rfl, rfl⟩

/-- A call on a process without runs comes to its end. -/
theorem inevitable_returned (g : Grid σ) (S : Outside σ) (ctx : RunnerContext) (w : World σ)
    (r : LoadRunner) : Inevitable (Observed.Moves g S ctx) (fun x => x.runner.phase = .ended)
      ⟨{ world := w }, { r with phase := .idle }, []⟩ := by
  refine .later ⟨_, .runner .refl rfl⟩ fun x hx => ?_
  cases hx with
  | task _ hstep => cases hstep
  | panic _ _ hl => cases hl
  | @runner v p r' _ hstep =>
    have hprepared : prepare ctx { world := v } { r with phase := .idle } = (p, r') :=
      Option.some.inj hstep
    rcases ctx.settings.mapTests.load.isIdle_or with hidle | ⟨plan, hplan, henabled⟩
    · obtain ⟨logs, -, hphase⟩ := prepare_idle hidle ({ world := v } : Process σ)
        { r with phase := .idle }
      rw [hprepared] at hphase
      exact .here hphase
    · obtain ⟨w', r', hprepare, hphase⟩ := prepare_waits hplan henabled v { r with phase := .idle }
      obtain ⟨rfl, rfl⟩ := Prod.mk.inj (hprepared.symm.trans hprepare)
      rw [List.nil_append, ← List.append_nil (List.map ..)]
      change Inevitable _ _
        (hosted ctx ⟨0, true⟩ r' _ [] (Watched.start (planned ctx plan v) w'))
      refine (inevitable_concluded _ _ hphase (Watched.sound_start _ w')).mono ?_
      rintro _ ⟨rs, s, -, -, rfl⟩
      rfl

/-! ## Many calls -/

/-- Calls of one runner, one after the other, each with its settings and what is reached in it. -/
inductive Calls : List (RunnerContext × List Milestone) → LoadRunner → Prop
  | none : Calls [] {}
  | more {calls : List (RunnerContext × List Milestone)} {r r' : LoadRunner} {ctx : RunnerContext}
      {reached : List Milestone} :
      Calls calls r → Call ctx r r' reached → Calls (calls ++ [(ctx, reached)]) r'

variable {calls : List (RunnerContext × List Milestone)}

/-- The list of a runner is that of all its calls. -/
theorem Calls.milestones_eq (h : Calls calls r) :
    r.milestones = calls.flatMap Prod.snd ∧ ∀ call ∈ calls, call.2 = due call.1 := by
  induction h with
  | none => exact ⟨rfl, by simp⟩
  | more _ hcall ih =>
    obtain ⟨hlist, hdue⟩ := ih
    obtain ⟨hmore, hreached⟩ := hcall.milestones_eq
    refine ⟨by simp [hmore, hlist], fun call hmem => ?_⟩
    rcases List.mem_append.mp hmem with hmem | hmem
    · exact hdue call hmem
    · obtain rfl := List.mem_singleton.mp hmem
      exact hreached

/-- The calls of one runner can be made with any settings. -/
theorem exists_calls (ctxs : List RunnerContext) :
    ∃ calls r, Calls calls r ∧ calls.map Prod.fst = ctxs := by
  induction ctxs using List.reverseRecOn with
  | nil => exact ⟨[], {}, .none, rfl⟩
  | append_singleton ctxs ctx ih =>
    obtain ⟨calls, r, hcalls, rfl⟩ := ih
    obtain ⟨x, hrun, hphase⟩ :=
      (inevitable_returned MemoryStore.grid (.still _) ctx { grid := {} } r).exists_reaches
    exact ⟨_, _, hcalls.more (.returns hrun rfl hphase rfl), List.map_append⟩

/-- However often a runner is called, and whatever each call is given: the list of its milestones is
    what was reached in the first call, then what was reached in the second one, and so on, each time
    as far as the settings let it come.  So it is what was reached in the last call if that was the
    first one, and never otherwise.  Calls with any settings do come to their ends. -/
theorem milestones_accumulate (ctxs : List RunnerContext) :
    (∃ calls r, Calls calls r ∧ calls.map Prod.fst = ctxs) ∧
    ∀ calls r, Calls calls r → calls.map Prod.fst = ctxs →
      r.milestones = calls.flatMap Prod.snd ∧ calls.map Prod.snd = ctxs.map due ∧
      ∀ earlier ctx reached, calls = earlier ++ [(ctx, reached)] →
        (r.milestones = reached ↔ earlier = []) := by
  refine ⟨exists_calls ctxs, ?_⟩
  rintro calls r h rfl
  obtain ⟨hlist, hdue⟩ := h.milestones_eq
  refine ⟨hlist, by rw [List.map_map]; exact List.map_congr_left hdue, ?_⟩
  rintro earlier ctx reached rfl
  have hlast : r.milestones = earlier.flatMap Prod.snd ++ reached := by
    simpa [List.flatMap_append] using hlist
  -- Every call reaches something, so that earlier ones leave their mark.
  rw [hlast, List.append_left_eq_self, List.flatMap_eq_nil_iff]
  refine ⟨fun hnone => List.eq_nil_iff_forall_not_mem.mpr fun call hcall => ?_, fun h => by simp [h]⟩
  exact due_ne_nil call.1 (hdue call (List.mem_append_left _ hcall) ▸ hnone call hcall)

/-- A load runner that is not enabled. -/
def idleContext : RunnerContext :=
  .ofSettings { mapTests := { load := { runner := { enabled := false } } } } ⟨"client"⟩ ⟨1⟩

/-- A whole run, and then a call of a runner that is not enabled. -/
theorem milestones_accumulate_sample :
    ∃ calls r, Calls calls r ∧ calls.map Prod.fst = [.ofSettings {} ⟨"client"⟩ ⟨1⟩, idleContext] ∧
      r.milestones = Milestone.all ++ [.start, .populateConfigComplete] := by
  obtain ⟨⟨calls, r, hcalls, hctxs⟩, hlist⟩ :=
    milestones_accumulate [.ofSettings {} ⟨"client"⟩ ⟨1⟩, idleContext]
  obtain ⟨hr, hdue, -⟩ := hlist calls r hcalls hctxs
  refine ⟨calls, r, hcalls, hctxs, ?_⟩
  rw [hr, List.flatMap_def, hdue]
  rfl

/-- The list of a runner is not always what was reached in its last call. -/
theorem milestones_of_earlier_calls : ¬ ∀ calls ctx reached r,
    Calls (calls ++ [(ctx, reached)]) r → r.milestones = reached := by
  intro hlast
  have hcall (r : LoadRunner) : Call idleContext r
      { r with milestones := r.milestones ++ [.start] ++ [.populateConfigComplete], phase := .ended }
      [.start, .populateConfigComplete] :=
    .returns (g := MemoryStore.grid) (S := .still _) (p := { world := { grid := {} } })
      (.single (.runner .refl rfl)) rfl rfl rfl
  have hcalls : Calls ([(idleContext, _)] ++ [(idleContext, _)]) _ :=
    .more (.more .none (hcall _)) (hcall _)
  exact absurd (hlast _ _ _ _ hcalls) (by decide)

end GridBench.LoadRunner
