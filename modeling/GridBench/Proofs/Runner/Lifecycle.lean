/-
  GridBench.Proofs.Runner.Lifecycle

  The load runner from its start to its end, as an observer tells it.  The
  steps of the runner are taken apart into single doings, each with its own
  effect on the process (`LoadRunner.step?_eq`), and the requests of the workers
  are noted between them.  The world may change between any two steps, time and
  cancellations included, and workers may panic (`Observed.Moves`).

  Main statement (`LoadRunner.lifecycle`): whatever the grid answers and in
  whichever order the tasks move, the runner comes to its end in one of three
  ways, which its settings alone decide.
-/
import GridBench.Proofs.Run.Caught
import GridBench.Proofs.Runner.Load
import GridBench.Proofs.Cli.Summary

namespace GridBench

namespace LoadRunner

variable {σ : Type} {g : Grid σ} {S : Outside σ} {ctx : RunnerContext} {w : World σ}

/-! ## What the runner does -/

/-- One thing that the load runner does. -/
inductive Doing where
  | reach (m : Milestone)
  | signal (s : ReadinessSignal)
  /-- It draws the payload of its elements. -/
  | draw (entries payload : Nat)
  /-- It binds its test loop to a run, which is registered with it. -/
  | bind (config : LoopConfig)
  | log (r : Record)
  /-- It starts to wait for a run. -/
  | await (run : Nat)
  | finish

/-- What becomes of the process and of the runner. -/
def carryOut : Process σ × LoadRunner → Doing → Process σ × LoadRunner
  | (p, r), .reach m => (p, r.reach m)
  | (p, r), .signal s => (p.signal s, r)
  | (p, r), .draw entries payload =>
    ({ p with world := { p.world with
        draws := (LoadElement.populate entries payload p.world.draws).2 } }, r)
  | (p, r), .bind config => ((p.bind config).1, r)
  | (p, r), .log line => (p.log [line], r)
  | (p, r), .await run => (p, { r with phase := .running run })
  | (p, r), .finish => (p, r.finish)

/-- What the runner does before its run, or instead of it. -/
def opening (ctx : RunnerContext) (p : Process σ) : List Doing :=
  .reach .start ::
    match ctx.settings.mapTests.load.resolve with
    | .error problem =>
      [.log (record .error ("unable to populate config, aborting: " ++ problem.fault.message)),
        .finish]
    | .ok plan =>
      .reach .populateConfigComplete ::
        if plan.run.enabled then
          [.reach .checkEnabledComplete, .signal .notReady,
            .draw plan.numEntries.toNat plan.payloadSize.toNat, .bind (planned ctx plan p.world),
            .reach .assignTestLoopComplete, .signal .ready, .reach .raiseReadyComplete,
            .log (record .info ("starting load test loop against cluster '" ++ ctx.clusterName
              ++ "' (" ++ toString ctx.members.length ++ " member(s))")),
            .reach .testLoopStart, .await p.runs.size]
        else [.log (record .info "runner not enabled, won't run"), .finish]

/-- What the runner does after its run. -/
def closing : List Doing :=
  [.reach .testLoopComplete, .log (record .info "finished map load test loop"), .finish]

/-- What the next step of the runner does. -/
def doings (ctx : RunnerContext) (p : Process σ) (r : LoadRunner) : List Doing :=
  match r.phase with
  | .idle => opening ctx p
  | .running _ => closing
  | .ended => []

theorem prepare_eq (p : Process σ) (r : LoadRunner) :
    prepare ctx p r = (opening ctx p).foldl carryOut (p, r) := by
  unfold prepare opening
  cases ctx.settings.mapTests.load.resolve with
  | error problem => rfl
  | ok plan =>
    cases henabled : plan.run.enabled with
    | false => simp only [henabled]; rfl
    | true => simp only [henabled]; rfl

theorem conclude_eq (p : Process σ) (r : LoadRunner) :
    conclude none p r = closing.foldl carryOut (p, r) := rfl

/-- A step of the runner is made of its doings. -/
theorem step?_eq {p : Process σ} {r : LoadRunner} {x : Process σ × LoadRunner}
    (hstep : step? ctx p r = some x) : x = (doings ctx p r).foldl carryOut (p, r) := by
  cases hphase : r.phase with
  | idle =>
    have hdoings : doings ctx p r = opening ctx p := by rw [doings, hphase]
    have hprepare : step? ctx p r = some (prepare ctx p r) := by rw [step?, hphase]
    rw [hdoings, ← prepare_eq]
    exact Option.some.inj (hstep.symm.trans hprepare)
  | running run =>
    have hdoings : doings ctx p r = closing := by rw [doings, hphase]
    rw [hdoings, ← conclude_eq]
    simp only [step?, hphase] at hstep
    split at hstep
    · cases hstep
    · split at hstep
      · exact (Option.some.inj hstep).symm
      · cases hstep
  | ended =>
    simp only [step?, hphase] at hstep
    cases hstep

/-! ## An observer -/

/-- What an observer notes: a doing of the runner, or a request that a worker sends to the grid. -/
inductive Event where
  | did (d : Doing)
  | asked (r : Request)

/-- The signals of readiness in a story. -/
def signalsOf (story : List Event) : List ReadinessSignal :=
  story.filterMap fun
    | .did (.signal s) => some s
    | _ => none

/-- The runs that are bound in a story. -/
def bindingsOf (story : List Event) : List LoopConfig :=
  story.filterMap fun
    | .did (.bind config) => some config
    | _ => none

/-- The requests in a story. -/
def requestsOf (story : List Event) : List Request :=
  story.filterMap fun
    | .asked r => some r
    | _ => none

/-- A process, its load runner, and what an observer has noted so far. -/
structure Observed (σ : Type) where
  process : Process σ
  runner : LoadRunner := {}
  story : List Event := []

/-- The requests that the next step of a task sends. -/
def sends (p : Process σ) (t : ProcessTask) : List Request :=
  match t.task with
  | .worker q => ((p.runs[t.run]?).bind (·.workers[q]?)).elim [] (·.sends p.world)
  | _ => []

/-- A step of the runner or of a task of its process, or a panic of a worker, after whatever happens
    outside before it. -/
inductive Observed.Moves (g : Grid σ) (S : Outside σ) (ctx : RunnerContext) (x : Observed σ) :
    Observed σ → Prop
  | runner {v : World σ} {p : Process σ} {r : LoadRunner} :
      Relation.ReflTransGen S.stirs x.process.world v →
      step? ctx { x.process with world := v } x.runner = some (p, r) →
      Moves g S ctx x ⟨p, r,
        x.story ++ (doings ctx { x.process with world := v } x.runner).map .did⟩
  | task {v : World σ} {t : ProcessTask} {p : Process σ} :
      Relation.ReflTransGen S.stirs x.process.world v →
      Process.step? g { x.process with world := v } t = some p →
      Moves g S ctx x ⟨p, x.runner,
        x.story ++ (sends { x.process with world := v } t).map .asked⟩
  | panic {v : World σ} {n q : Nat} {message : String} {l : LoopRun} {t t' : Worker} :
      Relation.ReflTransGen S.stirs x.process.world v → S.panics →
      x.process.runs[n]? = some l → l.workers[q]? = some t →
      (Partition.mk l.config q).Unwinds message t t' →
      Moves g S ctx x { x with process := { x.process with
        world := v
        runs := x.process.runs.setIfInBounds n
          { l with workers := l.workers.setIfInBounds q t' } } }

/-! ## What it comes to -/

/-- The runner did nothing but look at its settings. -/
structure Observed.Untouched (x : Observed σ) : Prop where
  requests : requestsOf x.story = []
  bindings : bindingsOf x.story = []
  signals : signalsOf x.story = []
  registry : x.process.registry.runs = []
  readiness : x.process.readiness = {}
  down : x.process.readiness.isUp = false

/-- The runner was ready for its one run before the first request, and the run finished. -/
structure Observed.Completed (ctx : RunnerContext) (x : Observed σ) : Prop where
  story : ∃ before after, x.story = before ++ after ∧
    requestsOf before = [] ∧ signalsOf before = [.notReady, .ready] ∧ signalsOf after = []
  bindings : (bindingsOf x.story).length = 1
  registry : x.process.registry.runs = [⟨.maps, source, ctx.runId, 0⟩]
  up : x.process.readiness.isUp = true
  finished : ∃ ms, x.process.statusOf .maps source = some ms ∧
    (runnerFinishedKey, .bool true) ∈ ms

/-- The three ways in which the runner comes to its end. -/
def Observed.Outcome (ctx : RunnerContext) (x : Observed σ) : Prop :=
  match ctx.settings.mapTests.load.resolve with
  | .error _ => x.runner.milestones = [.start] ∧ x.Untouched
  | .ok plan =>
    if plan.run.enabled then x.runner.milestones = Milestone.all ∧ x.Completed ctx
    else x.runner.milestones = [.start, .populateConfigComplete] ∧ x.Untouched

/-! ## The run of the runner -/

/-- An observer of a process that hosts a run for which the runner waits. -/
def hosted (ctx : RunnerContext) (readiness : Readiness) (r : LoadRunner) (before : List Event)
    (rs : List Request) (s : Watched σ) : Observed σ :=
  ⟨host ctx readiness s.world s.run, r, before ++ rs.map .asked⟩

/-- An observer of the end of the runner. -/
def concluded (ctx : RunnerContext) (readiness : Readiness) (r : LoadRunner) (before : List Event)
    (rs : List Request) (s : Watched σ) : Observed σ :=
  ⟨(conclude none (host ctx readiness s.world s.run) r).1, (r.reach .testLoopComplete).finish,
    before ++ rs.map .asked ++ closing.map .did⟩

variable {config : LoopConfig} {readiness : Readiness} {r : LoadRunner} {before : List Event}
  {rs : List Request} {s s' : Watched σ}

/-- What happens to the run, the observer sees. -/
theorem exists_moves_of_endures (h : s.Endures g S s') :
    ∃ x, (hosted ctx readiness r before rs s).Moves g S ctx x := by
  cases h with
  | moves hmoves =>
    obtain ⟨v, task, hv, hmove⟩ := hmoves
    have hstep : (host ctx readiness v s.run).step? g ⟨0, task⟩ = _ :=
      (step?_host readiness { s with world := v } task).trans (congrArg (Option.map _) hmove)
    exact ⟨_, .task (t := ⟨0, task⟩) hv hstep⟩
  | panics hv hpanics ht hunwinds => exact ⟨_, .panic (n := 0) hv hpanics rfl ht hunwinds⟩

/-- While the runner waits for its run, whatever happens happens to the run, or the run has finished
    and the runner comes to its end. -/
theorem Observed.Moves.cases_hosted (hr : r.phase = .running 0) {x : Observed σ}
    (h : (hosted ctx readiness r before rs s).Moves g S ctx x) :
    (∃ s' rs', s.Endures g S s' ∧ x = hosted ctx readiness r before rs' s') ∨
      s.run.phase = .finished ∧
        ∃ v, x = concluded ctx readiness r before rs { s with world := v } := by
  cases h with
  | @runner v p r' hv hstep =>
    right
    have hstep := (step?_running hr v).symm.trans hstep
    split at hstep
    · rename_i hphase
      cases hstep
      refine ⟨hphase, v, ?_⟩
      have hdoings : doings ctx { (hosted ctx readiness r before rs s).process with world := v } r =
          closing := by rw [doings, hr]
      exact congrArg (Observed.mk _ _ <| _ ++ ·.map .did) hdoings
    · cases hstep
  | @task v t p hv hstep =>
    left
    obtain ⟨n, task⟩ := t
    cases n with
    | succ n => cases hstep
    | zero =>
      let moved : Watched σ := { s with world := v }
      obtain ⟨s'', hs'', rfl⟩ :=
        Option.map_eq_some_iff.mp ((step?_host readiness moved task).symm.trans hstep)
      have hstory := List.append_assoc before (rs.map .asked)
        ((sends (host ctx readiness v s.run) ⟨0, task⟩).map .asked)
      rw [← List.map_append] at hstory
      exact ⟨s'', _, .moves ⟨v, task, hv, hs''⟩, congrArg (Observed.mk _ r) hstory⟩
  | @panic v n q message l t t' hv hpanics hl ht hunwinds =>
    left
    cases n with
    | succ n => cases hl
    | zero =>
      cases hl
      exact ⟨_, rs, .panics hv hpanics ht hunwinds, rfl⟩

end LoadRunner

/-- A run that has finished suffers nothing more. -/
theorem Watched.Sound.not_endures_of_finished {config : LoopConfig} {s s' : Watched σ}
    {S : Outside σ} {g : Grid σ} (h : s.Sound config) (hphase : s.run.phase = .finished) :
    ¬ s.Endures g S s' := by
  intro hstep
  cases hstep with
  | moves hmoves => exact h.not_moves_of_finished hphase hmoves
  | panics _ _ ht hunwinds =>
    obtain ⟨hclosed, -⟩ := h.closed_of_phase hphase
    exact absurd (hclosed.hasEnded ht) (by simp [hunwinds.not_hasEnded])

namespace LoadRunner

variable {config : LoopConfig} {r : LoadRunner} {rs : List Request} {s : Watched σ}

/-- The runner comes to its end behind its run, with nothing but requests in between. -/
theorem inevitable_concluded (readiness : Readiness) (before : List Event)
    (hr : r.phase = .running 0) (hs : s.Sound config) :
    Inevitable (Observed.Moves g S ctx) (fun x => ∃ rs' s', s'.Sound config ∧
        s'.run.phase = .finished ∧ x = concluded ctx readiness r before rs' s')
      (hosted ctx readiness r before rs s) := by
  have hfinish := hs.inevitable_finished_of_endures (g := g) (S := S)
  induction hfinish generalizing rs with
  | @here s hphase =>
    refine .later ⟨_, .runner .refl ((step?_running hr _).trans (if_pos hphase))⟩ fun x hx =>
      .here ?_
    rcases hx.cases_hosted hr with ⟨s', -, hstep, -⟩ | ⟨-, v, rfl⟩
    · exact absurd hstep (hs.not_endures_of_finished hphase)
    · exact ⟨rs, _, hs.stir v, hphase, rfl⟩
  | @later s hmove _ ih =>
    obtain ⟨s', hs'⟩ := hmove
    refine .later (exists_moves_of_endures hs') fun x hx => ?_
    rcases hx.cases_hosted hr with ⟨s'', rs', hstep, rfl⟩ | ⟨hphase, -⟩
    · exact ih s'' hstep (hs.reaches hstep.reaches)
    · exact absurd hs' (hs.not_endures_of_finished hphase)

/-! ## The three ends -/

theorem requestsOf_did (ds : List Doing) : requestsOf (ds.map .did) = [] := by
  simp [requestsOf, List.filterMap_map]

theorem signalsOf_asked (rs : List Request) : signalsOf (rs.map .asked) = [] := by
  simp [signalsOf, List.filterMap_map]

theorem bindingsOf_asked (rs : List Request) : bindingsOf (rs.map .asked) = [] := by
  simp [bindingsOf, List.filterMap_map]

/-- What the runner has become when it starts to wait for its run. -/
theorem prepare_enabled {plan : LoadPlan} (hplan : ctx.settings.mapTests.load.resolve = .ok plan)
    (henabled : plan.run.enabled = true) (w : World σ) :
    ∃ w', prepare ctx { world := w } {} =
      (host ctx ⟨0, true⟩ w' { config := planned ctx plan w },
        ⟨[.start, .populateConfigComplete, .checkEnabledComplete, .assignTestLoopComplete,
          .raiseReadyComplete, .testLoopStart], .running 0⟩) := by
  unfold prepare
  simp only [hplan, henabled, if_true]
  exact ⟨_, rfl⟩

/-- The runner behind its run. -/
theorem completed_concluded {plan : LoadPlan} {p : Process σ}
    (hplan : ctx.settings.mapTests.load.resolve = .ok plan) (henabled : plan.run.enabled = true)
    (hs : s.Sound config) (hphase : s.run.phase = .finished) :
    (concluded ctx ⟨0, true⟩ r ((opening ctx p).map .did) rs s).Completed ctx where
  story := by
    refine ⟨_, _, List.append_assoc .., requestsOf_did _, ?_, ?_⟩
    · rw [opening, hplan]
      simp only [henabled]
      rfl
    · rw [signalsOf, List.filterMap_append]
      exact congrArg (· ++ _) (signalsOf_asked rs)
  bindings := by
    have hrun : bindingsOf (rs.map .asked) = [] := bindingsOf_asked rs
    rw [bindingsOf] at hrun ⊢
    rw [concluded, List.filterMap_append, List.filterMap_append, hrun, opening, hplan]
    simp only [henabled]
    rfl
  registry := rfl
  up := rfl
  finished := ⟨s.run.gatherer.table.snapshot, rfl,
    Progress.mem_snapshot.mpr (hs.finished_of_phase hphase)⟩

/-- An observer of the runner's first step. -/
def prepared (ctx : RunnerContext) (w : World σ) : Observed σ :=
  ⟨(prepare ctx { world := w } {}).1, (prepare ctx ({ world := w } : Process σ) {}).2,
    (opening ctx ({ world := w } : Process σ)).map .did⟩

/-- The first step is that of the runner, since there are no other tasks. -/
theorem Observed.Moves.eq_prepared {x : Observed σ}
    (hx : Observed.Moves g S ctx { process := { world := w } } x) : ∃ v, x = prepared ctx v := by
  cases hx with
  | @runner v p r _ hstep =>
    obtain ⟨rfl, rfl⟩ := Prod.mk.inj (Option.some.inj hstep)
    exact ⟨v, rfl⟩
  | task _ hstep => cases hstep
  | panic _ _ hl => cases hl

/-- If a run is planned, the runner comes to its end behind it. -/
theorem inevitable_completed {plan : LoadPlan}
    (hplan : ctx.settings.mapTests.load.resolve = .ok plan) (henabled : plan.run.enabled = true)
    (w : World σ) :
    Inevitable (Observed.Moves g S ctx) (fun x => x.runner.phase = .ended ∧
      x.runner.milestones = Milestone.all ∧ x.Completed ctx) (prepared ctx w) := by
  obtain ⟨w', hprepare⟩ := prepare_enabled hplan henabled w
  have hhosted : prepared ctx w = hosted ctx ⟨0, true⟩ (prepare ctx ({ world := w } : Process σ) {}).2
      ((opening ctx ({ world := w } : Process σ)).map .did) []
      (Watched.start (planned ctx plan w) w') := by
    rw [prepared, hosted, hprepare, List.map_nil, List.append_nil]
    rfl
  rw [hhosted, hprepare]
  refine (inevitable_concluded _ _ rfl (Watched.sound_start _ w')).mono ?_
  rintro _ ⟨rs, s, hs, hphase, rfl⟩
  exact ⟨rfl, rfl, completed_concluded hplan henabled hs hphase⟩

/-- The life of the load runner.  Whatever the grid answers, in whichever order the tasks move,
    whenever the world changes, cancellations included, and whichever workers panic: the runner comes
    to its end, and its milestones are the first one alone if its settings are refused, the first two
    if it is not enabled, and otherwise all of them.  In the first two cases no request is sent,
    nothing is registered and readiness is as it was.  In the third one run is registered, lack of
    readiness and then readiness are signalled, both before the first request, and in the end
    readiness is up and the run's table says that it has finished. -/
theorem lifecycle (g : Grid σ) (S : Outside σ) (ctx : RunnerContext) (w : World σ) :
    Inevitable (Observed.Moves g S ctx) (fun x => x.runner.phase = .ended ∧ x.Outcome ctx)
      { process := { world := w } } := by
  refine .later ⟨_, .runner .refl rfl⟩ fun x hx => ?_
  obtain ⟨v, rfl⟩ := hx.eq_prepared
  cases hresolve : ctx.settings.mapTests.load.resolve with
  | error problem =>
    refine .here ?_
    simp only [Observed.Outcome, prepared, prepare, opening, hresolve]
    exact ⟨rfl, rfl, rfl, rfl, rfl, rfl, rfl, rfl⟩
  | ok plan =>
    simp only [Observed.Outcome, hresolve]
    cases henabled : plan.run.enabled with
    | false =>
      refine .here ?_
      simp only [prepared, prepare, opening, hresolve, henabled, Bool.false_eq_true, if_false]
      exact ⟨rfl, rfl, rfl, rfl, rfl, rfl, rfl, rfl⟩
    | true =>
      simp only [if_true]
      exact inevitable_completed hresolve henabled v

end LoadRunner

end GridBench
