/-
  GridBench.Proofs.Run.Order

  A test loop that is used out of its order.  Its owner may write into the
  gatherer that is to be handed over, start it too early, bind the loop to a
  run, and run it, in any order and as often as they like (`TestLoop.Call`),
  while the tasks of all runs, other producers and the world go on
  (`TestLoop.Step`).  A run makes four insertions before it starts the gatherer;
  `LoopRun.commence` carries them out one by one and keeps what was done before
  a refusal, so that a refusal that leaves everything as it was is a fact about
  it and not a matter of notation.

  Main statement (`TestLoop.refused_unchanged`): whatever comes out of order is
  refused before anything was done.
-/
import GridBench.Run.Process
import GridBench.Store.Memory
import GridBench.Proofs.Run.Ending
import GridBench.Proofs.Status.Course

namespace GridBench

/-! ## Beginning a run -/

namespace LoopRun

variable {l l' : LoopRun}

/-- Begins a run, one insertion after the other and then the task.  If one of these steps is
    refused, what was done before it stays. -/
def commence (l : LoopRun) : Except Fault Unit × LoopRun :=
  match Gatherer.insertEach (initialStatus l.config.plan) l.gatherer with
  | (.error f, g) => (.error f, { l with gatherer := g })
  | (.ok (), g) =>
    match g.listen with
    | .error f => (.error f, { l with gatherer := g })
    | .ok g' => (.ok (), { l with gatherer := g', phase := .launching })

/-- A run that has just begun. -/
def begun (l : LoopRun) : LoopRun :=
  { l with
    gatherer := { l.gatherer with
      table := l.gatherer.table.writeAll (initialStatus l.config.plan), phase := .listening }
    phase := .launching }

theorem commence_idle (hphase : l.gatherer.phase = .idle) : l.commence = (.ok (), l.begun) := by
  unfold commence
  rw [Gatherer.insertEach_idle hphase]
  simp only [Gatherer.listen, hphase, if_true]
  rfl

/-- Nothing was done before the refusal. -/
theorem commence_started (hphase : l.gatherer.phase ≠ .idle) :
    l.commence = (.error Gatherer.tooLate, l) := by
  unfold commence
  rw [initialStatus, Gatherer.insertEach_started hphase]

/-- Beginning a run comes to the same, done in one go or step by step. -/
theorem begin_eq_commence (l : LoopRun) :
    l.begin = match l.commence with
      | (.ok (), l') => .ok l'
      | (.error f, _) => .error f := by
  by_cases hphase : l.gatherer.phase = .idle
  · rw [commence_idle hphase]
    unfold begin
    simp only [initialStatus, List.foldlM_cons, List.foldlM_nil, Gatherer.insertNow, hphase, if_true]
    rfl
  · rw [commence_started hphase]
    unfold begin
    rw [initialStatus, List.foldlM_cons, Gatherer.insertNow_started hphase]
    rfl

/-! ## A run in the course of time -/

/-- What the steps of a run's tasks make of it, as far as its order goes. -/
structure Later (l l' : LoopRun) : Prop where
  gatherer : Gatherer.Later l.gatherer l'.gatherer
  begun : l'.phase ≠ .bound → l.phase ≠ .bound ∨ l'.gatherer.phase ≠ .idle
  finished : l'.phase = .finished → l.phase = .finished ∨ l'.gatherer.phase = .finished

/-- Steps that leave the main task where it is. -/
theorem later_of_phase (hphase : l'.phase = l.phase) (hg : Gatherer.Later l.gatherer l'.gatherer) :
    l.Later l' :=
  ⟨hg, fun h => .inl (hphase ▸ h), fun h => .inl (hphase ▸ h)⟩

theorem later_refl (l : LoopRun) : l.Later l := later_of_phase rfl .refl

theorem Later.trans {l'' : LoopRun} (h : l.Later l') (h' : l'.Later l'') : l.Later l'' where
  gatherer := h.gatherer.trans h'.gatherer
  begun hne := (h'.begun hne).elim
    (fun hl => (h.begun hl).imp_right h'.gatherer.started) .inr
  finished hfin := (h'.finished hfin).elim
    (fun hl => (h.finished hl).imp_right fun hph => (h'.gatherer.seals hph).1) .inr

theorem later_begun (hphase : l.gatherer.phase = .idle) : l.Later l.begun := by
  have hwritten := Gatherer.later_insertEach hphase (initialStatus l.config.plan)
  refine ⟨hwritten.tail ⟨.listen, by simp, List.not_mem_nil, ?_⟩, fun _ => .inr (by simp [begun]),
    by simp [begun]⟩
  simp only [Gatherer.after, Gatherer.listen, hphase, if_true]
  rfl

theorem Later.of_begin (hbegin : l.begin = .ok l') : l.Later l' := by
  rw [begin_eq_commence] at hbegin
  by_cases hphase : l.gatherer.phase = .idle
  · rw [commence_idle hphase] at hbegin
    cases hbegin
    exact later_begun hphase
  · rw [commence_started hphase] at hbegin
    cases hbegin

theorem later_of_mainStep? {σ : Type} {g : Grid σ} {w w' : World σ}
    (hstep : l.step? g w .main = some (w', l')) : l.Later l' := by
  have hadvance : Watched.advance g { world := w, run := l } .main =
      some { world := w', run := l' } := by
    rw [Watched.advance, hstep]
    rfl
  have hgone : ∀ {phase : LoopPhase}, l.phase = phase → phase ≠ .bound → l.phase ≠ .bound :=
    fun h hne => h ▸ hne
  generalize hs : ({ world := w, run := l } : Watched σ) = s at hadvance
  generalize hs' : ({ world := w', run := l' } : Watched σ) = s' at hadvance
  obtain rfl : s.run = l := hs ▸ rfl
  obtain rfl : s'.run = l' := hs' ▸ rfl
  cases Watched.turn_of_advance_main hadvance with
  | begun _ hbegin => exact .of_begin hbegin
  | launched => exact later_of_phase rfl .refl
  | joins hphase => exact ⟨.refl, fun _ => .inl (hgone hphase (by decide)), by simp⟩
  | stops hphase =>
    exact ⟨Gatherer.later_of_event (.post .stop) (by simp) List.not_mem_nil,
      fun _ => .inl (hgone hphase (by decide)), by simp⟩
  | finishes hphase hfinished =>
    exact ⟨.refl, fun _ => .inl (hgone hphase (by decide)), fun _ => .inr hfinished⟩

theorem later_of_workerStep? {σ : Type} {g : Grid σ} {w w' : World σ} {p : Nat}
    (hstep : l.step? g w (.worker p) = some (w', l')) : l.Later l' := by
  simp only [step?, workerStep?, Option.bind_eq_some_iff, Option.map_eq_some_iff] at hstep
  obtain ⟨t, -, ⟨v, t', us⟩, -, hl⟩ := hstep
  cases hl
  exact later_of_phase rfl (Gatherer.later_sendAll _ us)

theorem later_of_gatherStep? {σ : Type} {g : Grid σ} {w w' : World σ}
    (hstep : l.step? g w .gather = some (w', l')) : l.Later l' := by
  simp only [step?, gatherStep?, Option.map_eq_some_iff] at hstep
  obtain ⟨⟨t, logs⟩, ht, hl⟩ := hstep
  cases hl
  have hafter : l.gatherer.after .gather = t := by
    rw [Gatherer.after, ht]
    rfl
  have hallows : Gatherer.Allows [] l.gatherer .gather := Option.isSome_iff_exists.mpr ⟨_, ht⟩
  have hlater := Gatherer.later_of_event .gather (by simp) hallows
  rw [hafter] at hlater
  exact later_of_phase rfl hlater

/-- Whatever task makes a step. -/
theorem later_of_step? {σ : Type} {g : Grid σ} {w w' : World σ} {task : LoopTask}
    (hstep : l.step? g w task = some (w', l')) : l.Later l' := by
  cases task with
  | main => exact later_of_mainStep? hstep
  | worker p => exact later_of_workerStep? hstep
  | gather => exact later_of_gatherStep? hstep

/-- What holds of a run whose gatherer was not given up. -/
structure Ordered (l : LoopRun) : Prop where
  kept : l.gatherer.Kept
  begun : l.phase ≠ .bound → l.gatherer.phase ≠ .idle
  finished : l.phase = .finished → l.gatherer.phase = .finished

theorem Ordered.later (ho : l.Ordered) (hlater : l.Later l') : l'.Ordered where
  kept := ho.kept.later hlater.gatherer
  begun h := (hlater.begun h).elim (fun hl => hlater.gatherer.started (ho.begun hl)) id
  finished h := (hlater.finished h).elim (fun hl => (hlater.gatherer.seals (ho.finished hl)).1) id

end LoopRun

/-! ## A test loop and its owner -/

/-- A test loop in its process: the run that it is bound to, if it is to one, and the gatherer
    that its owner is going to hand over next. -/
structure TestLoop (σ : Type) where
  process : Process σ
  bound : Option Nat := none
  gatherer : Gatherer := {}

namespace TestLoop

variable {σ : Type} {g : Grid σ} {S : Outside σ} {w : World σ} {s s' : TestLoop σ}

/-- What the owner of a test loop may ask for. -/
inductive Call where
  /-- To write an update, or a stop, directly into the gatherer. -/
  | insert (u : StatusUpdate)
  /-- To start the gatherer. -/
  | listen
  /-- To bind the loop to a run, which gets the gatherer. -/
  | init (config : LoopConfig)
  | run

/-- The test loop of a process that has not run anything. -/
def start (w : World σ) : TestLoop σ := { process := { world := w } }

/-- The run that the loop is bound to, with its number. -/
def current? (s : TestLoop σ) : Option (Nat × LoopRun) :=
  s.bound.bind fun n => (s.process.runs[n]?).map fun l => (n, l)

/-- Puts a run into its place. -/
def putRun (s : TestLoop σ) (n : Nat) (l : LoopRun) : TestLoop σ :=
  { s with process := { s.process with runs := s.process.runs.setIfInBounds n l } }

/-- The runs, once the loop has given up the gatherer it had. -/
def released (s : TestLoop σ) : Array LoopRun :=
  match s.current? with
  | none => s.process.runs
  | some (n, l) => s.process.runs.setIfInBounds n { l with gatherer := l.gatherer.discard }

/-- The refusal of a run of a loop that is not bound to one. -/
def beforeInit : Fault := .invalidState "test loop run before init"

/-- What a call answers, and what it leaves behind. -/
def call (s : TestLoop σ) : Call → Except Fault Unit × TestLoop σ
  | .insert u =>
    match s.gatherer.insertNow u with
    | .ok t => (.ok (), { s with gatherer := t })
    | .error f => (.error f, s)
  | .listen =>
    match s.gatherer.listen with
    | .ok t => (.ok (), { s with gatherer := t })
    | .error f => (.error f, s)
  | .init config =>
    let (p, n) := { s.process with runs := s.released }.bind config s.gatherer
    (.ok (), { process := p, bound := some n })
  | .run =>
    match s.current? with
    | none => (.error beforeInit, s)
    | some (n, l) =>
      match l.commence with
      | (.error f, l') => (.error f, s.putRun n l')
      | (.ok (), l') =>
        let s := s.putRun n l'
        (.ok (), { s with process := s.process.log (LoopRun.boundaryWarning l.config) })

/-- One step: a call of the owner, a step of a task of any run, a panic of a worker, an event at the
    owner's gatherer or at that of a run, or a change of the world.  Only the gatherers of runs that
    the loop is bound to no more may be given up. -/
inductive Step (g : Grid σ) (S : Outside σ) (s : TestLoop σ) : TestLoop σ → Prop
  | call (c : Call) : Step g S s (s.call c).2
  | task {t : ProcessTask} {p : Process σ} : s.process.step? g t = some p →
      Step g S s { s with process := p }
  | panic {n p : Nat} {message : String} {l : LoopRun} {t t' : Worker} : S.panics →
      s.process.runs[n]? = some l → l.workers[p]? = some t →
      (Partition.mk l.config p).Unwinds message t t' →
      Step g S s (s.putRun n { l with workers := l.workers.setIfInBounds p t' })
  | owned {t : Gatherer} : s.gatherer.Goes t → Step g S s { s with gatherer := t }
  | produced {n : Nat} {l : LoopRun} {e : Gatherer.Event} : s.process.runs[n]? = some l →
      (s.bound = some n → l.gatherer.Goes (l.gatherer.after e)) →
      Step g S s (s.putRun n { l with gatherer := l.gatherer.after e })
  | stir {w : World σ} : S.stirs s.process.world w →
      Step g S s { s with process := { s.process with world := w } }

/-- Any number of steps. -/
abbrev Reaches (g : Grid σ) (S : Outside σ) : TestLoop σ → TestLoop σ → Prop :=
  Relation.ReflTransGen (Step g S)

/-! ## What a step does to the runs -/

/-- A step that leaves the loop bound as it is.  The run that it is bound to goes on, and no other
    run's table is written once its gatherer has finished. -/
structure Holds (s s' : TestLoop σ) : Prop where
  bound : s'.bound = s.bound
  size : s'.process.runs.size = s.process.runs.size
  gatherer : Gatherer.Later s.gatherer s'.gatherer
  runs : ∀ n l, s.process.runs[n]? = some l → ∃ l', s'.process.runs[n]? = some l' ∧
    Gatherer.Seals l.gatherer l'.gatherer ∧ (s.bound = some n → l.Later l')

/-- A step that binds the loop to a new run. -/
structure Renews (s s' : TestLoop σ) : Prop where
  bound : s'.bound = some s.process.runs.size
  runs : ∃ config, s'.process.runs = s.released.push { config := config, gatherer := s.gatherer }
  gatherer : s'.gatherer = {}

theorem Holds.trans {s'' : TestLoop σ} (h : Holds s s') (h' : Holds s' s'') : Holds s s'' where
  bound := h'.bound.trans h.bound
  size := h'.size.trans h.size
  gatherer := h.gatherer.trans h'.gatherer
  runs n l hl := by
    obtain ⟨l', hl', hseals, hlater⟩ := h.runs n l hl
    obtain ⟨l'', hl'', hseals', hlater'⟩ := h'.runs n l' hl'
    exact ⟨l'', hl'', hseals.trans hseals', fun hb =>
      (hlater hb).trans (hlater' (h.bound.trans hb))⟩

theorem holds_of_runs (hbound : s'.bound = s.bound) (hruns : s'.process.runs = s.process.runs)
    (hgatherer : Gatherer.Later s.gatherer s'.gatherer) : Holds s s' where
  bound := hbound
  size := congrArg Array.size hruns
  gatherer := hgatherer
  runs _ l hl := ⟨l, hruns ▸ hl, fun hph => ⟨hph, rfl⟩, fun _ => l.later_refl⟩

/-- One run is put in the place of what it was. -/
theorem holds_putRun {n : Nat} {l l' : LoopRun} (hl : s.process.runs[n]? = some l)
    (hseals : Gatherer.Seals l.gatherer l'.gatherer) (hlater : s.bound = some n → l.Later l') :
    Holds s (s.putRun n l') where
  bound := rfl
  size := Array.size_setIfInBounds
  gatherer := .refl
  runs m k hk := by
    by_cases hm : n = m
    · subst hm
      obtain rfl : l = k := Option.some.inj (hl.symm.trans hk)
      have hlt : n < s.process.runs.size := (Array.getElem?_eq_some_iff.mp hl).1
      exact ⟨l', Array.getElem?_setIfInBounds_self_of_lt hlt, hseals, hlater⟩
    · exact ⟨k, (Array.getElem?_setIfInBounds_ne hm).trans hk, fun hph => ⟨hph, rfl⟩,
        fun _ => k.later_refl⟩

theorem holds_putRun_later {n : Nat} {l l' : LoopRun} (hl : s.process.runs[n]? = some l)
    (hlater : l.Later l') : Holds s (s.putRun n l') :=
  holds_putRun hl hlater.gatherer.seals fun _ => hlater

theorem current?_eq_some {n : Nat} {l : LoopRun} :
    s.current? = some (n, l) ↔ s.bound = some n ∧ s.process.runs[n]? = some l := by
  simp only [current?, Option.bind_eq_some_iff, Option.map_eq_some_iff, Prod.mk.injEq]
  constructor
  · rintro ⟨m, hm, k, hk, rfl, rfl⟩
    exact ⟨hm, hk⟩
  · rintro ⟨hm, hk⟩
    exact ⟨n, hm, l, hk, rfl, rfl⟩

theorem size_released (s : TestLoop σ) : s.released.size = s.process.runs.size := by
  unfold released
  split
  · rfl
  · exact Array.size_setIfInBounds

/-- The gatherer that is given up is sealed like the others. -/
theorem seals_released {n : Nat} {l : LoopRun} (hl : s.process.runs[n]? = some l) :
    ∃ l', s.released[n]? = some l' ∧ Gatherer.Seals l.gatherer l'.gatherer := by
  unfold released
  split
  · exact ⟨l, hl, fun hph => ⟨hph, rfl⟩⟩
  · rename_i m k hcurrent
    obtain ⟨-, hk⟩ := current?_eq_some.mp hcurrent
    by_cases hm : m = n
    · subst hm
      obtain rfl : l = k := Option.some.inj (hl.symm.trans hk)
      have hlt : m < s.process.runs.size := (Array.getElem?_eq_some_iff.mp hl).1
      exact ⟨_, Array.getElem?_setIfInBounds_self_of_lt hlt, l.gatherer.seals_after .discard⟩
    · exact ⟨l, (Array.getElem?_setIfInBounds_ne hm).trans hl, fun hph => ⟨hph, rfl⟩⟩

/-! ## Calls -/

theorem call_insert_started (hphase : s.gatherer.phase ≠ .idle) (u : StatusUpdate) :
    s.call (.insert u) = (.error Gatherer.tooLate, s) := by
  rw [call, Gatherer.insertNow_started hphase]

theorem call_listen_started (hphase : s.gatherer.phase ≠ .idle) :
    s.call .listen = (.error Gatherer.alreadyListening, s) := by
  rw [call, Gatherer.listen_started hphase]

theorem call_run_unbound (hbound : s.bound = none) : s.call .run = (.error beforeInit, s) := by
  have hcurrent : s.current? = none := by rw [current?, hbound]; rfl
  rw [call, hcurrent]

theorem call_run_idle {n : Nat} {l : LoopRun} (hcurrent : s.current? = some (n, l))
    (hphase : l.gatherer.phase = .idle) :
    s.call .run = (.ok (), { s.putRun n l.begun with
      process := (s.putRun n l.begun).process.log (LoopRun.boundaryWarning l.config) }) := by
  rw [call, hcurrent]
  simp only [LoopRun.commence_idle hphase]

/-- Nothing was written before the refusal, and so the run is put back as it was. -/
theorem call_run_started {n : Nat} {l : LoopRun} (hcurrent : s.current? = some (n, l))
    (hphase : l.gatherer.phase ≠ .idle) : s.call .run = (.error Gatherer.tooLate, s) := by
  have hsame : s.putRun n l = s := by
    obtain ⟨hlt, hget⟩ := Array.getElem?_eq_some_iff.mp (current?_eq_some.mp hcurrent).2
    have hruns : s.process.runs.setIfInBounds n l = s.process.runs := by
      rw [Array.setIfInBounds, dif_pos hlt, ← hget, Array.set_getElem_self]
    rw [putRun, hruns]
  rw [call, hcurrent]
  simp only [LoopRun.commence_started hphase, hsame]

/-- A run that is asked for begins as the step of its main task does. -/
theorem call_run_eq_step {n : Nat} {l : LoopRun} (hcurrent : s.current? = some (n, l))
    (hphase : l.phase = .bound) :
    (s.call .run).1 = (LoopRun.beginBound (s.current?.map Prod.snd)).map (fun _ => ()) ∧
      ((s.call .run).1 = .ok () →
        s.process.step? g ⟨n, .main⟩ = some (s.call .run).2.process) := by
  have hget := (current?_eq_some.mp hcurrent).2
  by_cases hidle : l.gatherer.phase = .idle
  · rw [call_run_idle hcurrent hidle, hcurrent]
    have hbegin : l.begin = .ok l.begun := by
      rw [LoopRun.begin_eq_commence, LoopRun.commence_idle hidle]
    refine ⟨?_, fun _ => ?_⟩
    · simp only [Option.map_some, LoopRun.beginBound, hbegin]
      rfl
    · simp only [Process.step?, hget, Option.bind_some, LoopRun.step?, LoopRun.mainStep?, hphase,
        hbegin]
      rfl
  · rw [call_run_started hcurrent hidle, hcurrent]
    have hbegin : l.begin = .error Gatherer.tooLate := by
      rw [LoopRun.begin_eq_commence, LoopRun.commence_started hidle]
    refine ⟨?_, by simp⟩
    simp only [Option.map_some, LoopRun.beginBound, hbegin]
    rfl

theorem call_cases (s : TestLoop σ) (c : Call) : Holds s (s.call c).2 ∨ Renews s (s.call c).2 := by
  cases c with
  | insert u =>
    by_cases hphase : s.gatherer.phase = .idle
    · have hafter : (s.call (.insert u)).2 = { s with gatherer := s.gatherer.after (.insert u) } := by
        rw [call, Gatherer.after, Gatherer.insertNow_of_idle hphase]
        rfl
      rw [hafter]
      exact .inl (holds_of_runs rfl rfl
        (Gatherer.later_of_event (.insert u) (by simp) List.not_mem_nil))
    · rw [call_insert_started hphase]
      exact .inl (holds_of_runs rfl rfl .refl)
  | listen =>
    by_cases hphase : s.gatherer.phase = .idle
    · have hafter : (s.call .listen).2 = { s with gatherer := s.gatherer.after .listen } := by
        simp only [call, Gatherer.after, Gatherer.listen, hphase, if_true]
        rfl
      rw [hafter]
      exact .inl (holds_of_runs rfl rfl
        (Gatherer.later_of_event .listen (by simp) List.not_mem_nil))
    · rw [call_listen_started hphase]
      exact .inl (holds_of_runs rfl rfl .refl)
  | init config => exact .inr ⟨congrArg some s.size_released, ⟨config, rfl⟩, rfl⟩
  | run =>
    cases hcurrent : s.current? with
    | none =>
      rw [call, hcurrent]
      exact .inl (holds_of_runs rfl rfl .refl)
    | some r =>
      obtain ⟨n, l⟩ := r
      have hl := (current?_eq_some.mp hcurrent).2
      by_cases hphase : l.gatherer.phase = .idle
      · rw [call_run_idle hcurrent hphase]
        exact .inl ((holds_putRun_later hl (LoopRun.later_begun hphase)).trans
          (holds_of_runs rfl rfl .refl))
      · rw [call_run_started hcurrent hphase]
        exact .inl (holds_of_runs rfl rfl .refl)

/-- A step keeps the loop bound as it is, or binds it to a new run. -/
theorem Step.cases (hstep : Step g S s s') : Holds s s' ∨ Renews s s' := by
  cases hstep with
  | call c => exact s.call_cases c
  | @task t p hp =>
    simp only [Process.step?, Option.bind_eq_some_iff, Option.map_eq_some_iff] at hp
    obtain ⟨l, hl, ⟨w, l'⟩, hstep, rfl⟩ := hp
    exact .inl ((holds_putRun_later hl (LoopRun.later_of_step? hstep)).trans
      (holds_of_runs rfl rfl .refl))
  | panic _ hl => exact .inl (holds_putRun_later hl (LoopRun.later_of_phase rfl .refl))
  | owned hgoes => exact .inl (holds_of_runs rfl rfl (.single hgoes))
  | @produced n l e hl hbound =>
    exact .inl (holds_putRun hl (l.gatherer.seals_after e) fun hb =>
      LoopRun.later_of_phase rfl (.single (hbound hb)))
  | stir => exact .inl (holds_of_runs rfl rfl .refl)

/-! ## Any number of steps -/

/-- What holds of a test loop at any time. -/
structure Sound (s : TestLoop σ) : Prop where
  kept : s.gatherer.Kept
  ordered : ∀ n, s.bound = some n → ∃ l, s.process.runs[n]? = some l ∧ l.Ordered

theorem sound_start (w : World σ) : (start w).Sound where
  kept := Gatherer.kept_fresh
  ordered := nofun

theorem Sound.step (h : s.Sound) (hstep : Step g S s s') : s'.Sound := by
  rcases hstep.cases with hholds | hrenews
  · refine ⟨h.kept.later hholds.gatherer, fun n hb => ?_⟩
    have hbound : s.bound = some n := hholds.bound ▸ hb
    obtain ⟨l, hl, ho⟩ := h.ordered n hbound
    obtain ⟨l', hl', -, hlater⟩ := hholds.runs n l hl
    exact ⟨l', hl', ho.later (hlater hbound)⟩
  · obtain ⟨config, hruns⟩ := hrenews.runs
    refine ⟨hrenews.gatherer ▸ Gatherer.kept_fresh, fun n hb => ?_⟩
    obtain rfl := Option.some.inj (hrenews.bound.symm.trans hb)
    -- The new run has the gatherer that was to be handed over, and has not begun.
    refine ⟨{ config := config, gatherer := s.gatherer }, ?_, h.kept, absurd rfl, nofun⟩
    rw [hruns, ← s.size_released, Array.getElem?_push_size]

theorem Sound.reaches (h : s.Sound) (hs : Reaches g S s s') : s'.Sound := by
  induction hs with
  | refl => exact h
  | tail _ hstep ih => exact ih.step hstep

/-- The table of a gatherer that has finished is written no more. -/
theorem Step.seals {n : Nat} {l : LoopRun} (hstep : Step g S s s')
    (hl : s.process.runs[n]? = some l) :
    ∃ l', s'.process.runs[n]? = some l' ∧ Gatherer.Seals l.gatherer l'.gatherer := by
  rcases hstep.cases with hholds | hrenews
  · obtain ⟨l', hl', hseals, -⟩ := hholds.runs n l hl
    exact ⟨l', hl', hseals⟩
  · obtain ⟨config, hruns⟩ := hrenews.runs
    obtain ⟨l', hl', hseals⟩ := seals_released hl
    have hlt : n < s.released.size := (Array.getElem?_eq_some_iff.mp hl').1
    refine ⟨l', ?_, hseals⟩
    rw [hruns, Array.getElem?_push_lt hlt, ← Array.getElem?_eq_getElem hlt, hl']

theorem Reaches.seals {n : Nat} {l : LoopRun} (hs : Reaches g S s s')
    (hl : s.process.runs[n]? = some l) :
    ∃ l', s'.process.runs[n]? = some l' ∧ Gatherer.Seals l.gatherer l'.gatherer := by
  induction hs with
  | refl => exact ⟨l, hl, fun hph => ⟨hph, rfl⟩⟩
  | tail _ hstep ih =>
    obtain ⟨k, hk, hseals⟩ := ih
    obtain ⟨l', hl', hseals'⟩ := hstep.seals hk
    exact ⟨l', hl', hseals.trans hseals'⟩

/-- Steps that leave a loop bound as it was, or bind it to a run that is new. -/
theorem Reaches.cases (hs : Reaches g S s s') :
    Holds s s' ∨ ∃ n, s'.bound = some n ∧ s.process.runs.size ≤ n ∧
      s.process.runs.size ≤ s'.process.runs.size := by
  induction hs with
  | refl => exact .inl (holds_of_runs rfl rfl .refl)
  | @tail t t' _ hstep ih =>
    rcases hstep.cases with hholds | hrenews
    · refine ih.imp (·.trans hholds) ?_
      rintro ⟨n, hn, hle, hsize⟩
      exact ⟨n, hholds.bound.trans hn, hle, hholds.size ▸ hsize⟩
    · right
      obtain ⟨config, hruns⟩ := hrenews.runs
      have hle : s.process.runs.size ≤ t.process.runs.size :=
        ih.elim (fun h => Nat.le_of_eq h.size.symm) fun ⟨_, _, _, h⟩ => h
      refine ⟨_, hrenews.bound, hle, ?_⟩
      rw [hruns, Array.size_push, t.size_released]
      exact Nat.le_succ_of_le hle

/-- A loop that is bound as it was has been bound to nothing else in between. -/
theorem Sound.holds (h : s.Sound) (hs : Reaches g S s s') (hbound : s'.bound = s.bound) :
    Holds s s' := by
  rcases hs.cases with hholds | ⟨n, hn, hle, -⟩
  · exact hholds
  · obtain ⟨l, hl, -⟩ := h.ordered n (hbound ▸ hn)
    have hlt : n < s.process.runs.size := (Array.getElem?_eq_some_iff.mp hl).1
    exact absurd hle (Nat.not_le.mpr hlt)

/-! ## Out of order -/

/-- A gatherer that was started is refused another start, and every insertion, until it is handed
    over. -/
theorem Sound.owner_refused (h : s.Sound) (hphase : s.gatherer.phase ≠ .idle)
    (hs : Reaches g S s s') (hbound : s'.bound = s.bound) :
    s'.call .listen = (.error Gatherer.alreadyListening, s') ∧
      ∀ u, s'.call (.insert u) = (.error Gatherer.tooLate, s') := by
  have hstarted := (h.holds hs hbound).gatherer.started hphase
  exact ⟨call_listen_started hstarted, call_insert_started hstarted⟩

/-- A run that has begun is refused another beginning, until the loop is bound anew. -/
theorem Sound.run_refused (h : s.Sound) {n : Nat} {l : LoopRun}
    (hcurrent : s.current? = some (n, l)) (hphase : l.gatherer.phase ≠ .idle)
    (hs : Reaches g S s s') (hbound : s'.bound = s.bound) :
    s'.call .run = (.error Gatherer.tooLate, s') := by
  obtain ⟨hn, hl⟩ := current?_eq_some.mp hcurrent
  obtain ⟨l', hl', -, hlater⟩ := (h.holds hs hbound).runs n l hl
  exact call_run_started (current?_eq_some.mpr ⟨hbound.trans hn, hl'⟩)
    ((hlater hn).gatherer.started hphase)

/-- After a run that was accepted, every other is refused. -/
theorem Sound.rerun_refused (h : s.Sound) (hok : (s.call .run).1 = .ok ())
    (hs : Reaches g S (s.call .run).2 s') (hbound : s'.bound = s.bound) :
    s'.call .run = (.error Gatherer.tooLate, s') := by
  have hcalled : (s.call .run).2.Sound := h.step (g := g) (S := S) (.call .run)
  cases hcurrent : s.current? with
  | none => rw [call, hcurrent] at hok; cases hok
  | some r =>
    obtain ⟨n, l⟩ := r
    obtain ⟨hn, hl⟩ := current?_eq_some.mp hcurrent
    by_cases hphase : l.gatherer.phase = .idle
    · rw [call_run_idle hcurrent hphase] at hs hcalled
      have hlt : n < s.process.runs.size := (Array.getElem?_eq_some_iff.mp hl).1
      have hbegun : (s.putRun n l.begun).process.runs[n]? = some l.begun :=
        Array.getElem?_setIfInBounds_self_of_lt hlt
      exact hcalled.run_refused (current?_eq_some.mpr ⟨hn, hbegun⟩) (by simp [LoopRun.begun]) hs
        hbound
    · rw [call_run_started hcurrent hphase] at hok
      cases hok

/-- Whatever comes out of order is refused, and leaves everything as it is.  A run that the loop was
    not bound to is; so is one that has begun, however far it has come, and every other one after it
    until the loop is bound anew; so are starts and insertions at a gatherer that was started, until
    it is handed over.  Every other run is accepted.  Once a run has finished, its table says so for
    good. -/
theorem refused_unchanged (hs : Reaches g S (start w) s) :
    (s.bound = none → s.call .run = (.error beforeInit, s)) ∧
    (∀ n, s.bound = some n → ∃ l, s.process.runs[n]? = some l ∧
      ((s.call .run).1 = .ok () ↔ l.gatherer.phase = .idle) ∧
      (l.gatherer.phase ≠ .idle ∨ l.phase ≠ .bound → ∀ s', Reaches g S s s' → s'.bound = some n →
        s'.call .run = (.error Gatherer.tooLate, s')) ∧
      ((s.call .run).1 = .ok () → ∀ s', Reaches g S (s.call .run).2 s' → s'.bound = some n →
        s'.call .run = (.error Gatherer.tooLate, s')) ∧
      (l.phase = .finished → l.gatherer.isStopped = true ∧ ∀ s', Reaches g S s s' →
        ∃ l', s'.process.runs[n]? = some l' ∧ l'.gatherer.table = l.gatherer.table)) ∧
    (s.call .listen).2.gatherer.phase ≠ .idle ∧
    (s.gatherer.phase ≠ .idle → ∀ s', Reaches g S s s' → s'.bound = s.bound →
      s'.call .listen = (.error Gatherer.alreadyListening, s') ∧
        ∀ u, s'.call (.insert u) = (.error Gatherer.tooLate, s')) := by
  have hsound : s.Sound := (sound_start w).reaches hs
  refine ⟨call_run_unbound, fun n hn => ?_, ?_, fun hphase s' hs' hb =>
    hsound.owner_refused hphase hs' hb⟩
  · obtain ⟨l, hl, ho⟩ := hsound.ordered n hn
    have hcurrent := current?_eq_some.mpr ⟨hn, hl⟩
    refine ⟨l, hl, ⟨fun hok => ?_, fun hphase => ?_⟩, fun hphase s' hs' hb => ?_,
      fun hok s' hs' hb => hsound.rerun_refused hok hs' (hb.trans hn.symm), fun hfin => ?_⟩
    · refine Classical.byContradiction fun hphase => ?_
      rw [call_run_started hcurrent hphase] at hok
      cases hok
    · rw [call_run_idle hcurrent hphase]
    · exact hsound.run_refused hcurrent (hphase.elim id ho.begun) hs' (hb.trans hn.symm)
    · have hph := ho.finished hfin
      refine ⟨ho.kept.isStopped hph, fun s' hs' => ?_⟩
      obtain ⟨l', hl', hseals⟩ := Reaches.seals hs' hl
      exact ⟨l', hl', (hseals hph).2⟩
  · by_cases hphase : s.gatherer.phase = .idle
    · simp only [call, Gatherer.listen, hphase, if_true]
      simp
    · rw [call_listen_started hphase]
      exact hphase

/-- What a run does is one of the things that can happen to a loop that is bound to it. -/
theorem reaches_of_watched {x y : Watched σ} {n : Nat} (hxy : Watched.Reaches g S x y)
    (hworld : s.process.world = x.world) (hrun : s.process.runs[n]? = some x.run) :
    ∃ s', Reaches g S s s' ∧ s'.bound = s.bound ∧ s'.process.world = y.world ∧
      s'.process.runs[n]? = some y.run := by
  induction hxy with
  | refl => exact ⟨s, .refl, rfl, hworld, hrun⟩
  | @tail y z _ hstep ih =>
    obtain ⟨s', hs', hbound, hworld', hrun'⟩ := ih
    have hlt : n < s'.process.runs.size := (Array.getElem?_eq_some_iff.mp hrun').1
    cases hstep with
    | @move task z hmove =>
      obtain ⟨w, l, hl, hw, hr⟩ : ∃ w l, y.run.step? g y.world task = some (w, l) ∧ z.world = w ∧
          z.run = l := by
        simp only [Watched.advance, Option.map_eq_some_iff] at hmove
        obtain ⟨⟨w, l⟩, hl, rfl⟩ := hmove
        exact ⟨w, l, hl, by cases task <;> rfl, by cases task <;> rfl⟩
      have hp : s'.process.step? g ⟨n, task⟩ =
          some { s'.process with world := w, runs := s'.process.runs.setIfInBounds n l } := by
        simp only [Process.step?, hrun', Option.bind_some, hworld', hl]
        rfl
      exact ⟨_, hs'.tail (.task hp), hbound, hw.symm,
        hr ▸ Array.getElem?_setIfInBounds_self_of_lt hlt⟩
    | @stir w hstir =>
      have hstirs : S.stirs s'.process.world w := by rwa [hworld']
      exact ⟨_, hs'.tail (.stir hstirs), hbound, rfl, hrun'⟩
    | panic hpanics ht hunwinds =>
      exact ⟨_, hs'.tail (.panic hpanics hrun' ht hunwinds), hbound, hworld',
        Array.getElem?_setIfInBounds_self_of_lt hlt⟩

theorem refused_unchanged_sample :
    (∃ plan, Watched.sampleSettings.resolve "map-tests.load" "load" = .ok plan ∧
      ∃ s : TestLoop MemoryStore, Reaches MemoryStore.grid (.still _) (start { grid := {} }) s ∧
        s.bound = some 0 ∧ (∃ l, s.process.runs[0]? = some l ∧ l.phase = .finished ∧
          l.gatherer.isStopped = true) ∧
        s.call .run = (.error Gatherer.tooLate, s)) ∧
    ∃ s : TestLoop MemoryStore, Reaches MemoryStore.grid (.still _) (start { grid := {} }) s ∧
      s.gatherer.phase ≠ .idle ∧ s.call .listen = (.error Gatherer.alreadyListening, s) ∧
      s.call (.insert .stop) = (.error Gatherer.tooLate, s) := by
  constructor
  · obtain ⟨plan, hplan⟩ := Watched.exists_samplePlan
    let bound : TestLoop MemoryStore :=
      ((start { grid := {} }).call (.init (Watched.sampleConfig plan))).2
    obtain ⟨y, hy, hfinished⟩ := Watched.exists_finished MemoryStore.grid (.still _)
      (Watched.sampleConfig plan) bound.process.world
    obtain ⟨s, hs, hbound, -, hrun⟩ := reaches_of_watched (s := bound) (n := 0) hy rfl rfl
    have hreaches : Reaches MemoryStore.grid (.still _) (start { grid := {} }) s :=
      hs.head (.call (.init (Watched.sampleConfig plan)))
    obtain ⟨l, hl, -, hrefused, -, hstopped⟩ := (refused_unchanged hreaches).2.1 0 hbound
    obtain rfl : y.run = l := Option.some.inj (hrun.symm.trans hl)
    exact ⟨plan, hplan, s, hreaches, hbound, ⟨y.run, hl, hfinished, (hstopped hfinished).1⟩,
      hrefused (.inr (by simp [hfinished])) s .refl hbound⟩
  -- The owner starts the gatherer before handing it over.
  · have hreaches : Reaches MemoryStore.grid (.still _) (start { grid := {} })
        ((start { grid := {} }).call .listen).2 := .single (.call .listen)
    have hphase : ((start { grid := ({} : MemoryStore) }).call .listen).2.gatherer.phase ≠ .idle := by
      decide
    obtain ⟨hlisten, hinsert⟩ := (refused_unchanged hreaches).2.2.2 hphase _ .refl rfl
    exact ⟨_, hreaches, hphase, hlisten, hinsert .stop⟩

end TestLoop

end GridBench
