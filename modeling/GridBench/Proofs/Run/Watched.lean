/-
  GridBench.Proofs.Run.Watched

  A run under observation.  `Watched` is a run in its world, together with what
  an observer writes down: the deeds of every worker, the updates sent to the
  gatherer, and those its task wrote into the table.  `Watched.Step` is any
  step of a task of the run, and whatever its `Outside` lets happen between two
  steps: a change of the world, or the panic of a worker.

  `Watched.Turn` lists what the step of a task can be, and `turn_of_advance`
  shows that there is nothing else; invariants split on its cases.
-/
import Mathlib.Logic.Relation
import Mathlib.Logic.Function.Basic
import GridBench.Run.Loop
import GridBench.Proofs.Run.Move
import GridBench.Proofs.Run.Work

namespace GridBench

/-! ## Panics -/

/-- What may be left of a worker that panics with a message.  A panic in its rounds is caught
    until the handle is given back; one that nothing catches ends the worker at once. -/
inductive Partition.Unwinds (p : Partition) (message : String) (t : Worker) : Worker → Prop
  | caught {h : Handle} {e : Effect} {k : e.Reply → Proc (Option String)} :
      t.program = (.op e k >>= p.leave h) →
        Unwinds p message t (.running (p.leave h (some message)))
  | ended : t.hasEnded = false → Unwinds p message t (.running (.done (some message)))

/-- What is outside of a run: what may happen to the world between two of its steps, the passing of
    time included, and whether workers may panic. -/
structure Outside (σ : Type) where
  stirs : World σ → World σ → Prop
  passes : ∀ w moment, stirs w (w.passUntil moment)
  panics : Prop

/-- Nothing happens outside but that time passes. -/
def Outside.still (σ : Type) : Outside σ where
  stirs w w' := ∃ moment, w' = w.passUntil moment
  passes _ moment := ⟨moment, rfl⟩
  panics := False

/-! ## The observed run -/

/-- A run in its world and what an observer has written down about it. -/
structure Watched (σ : Type) where
  world : World σ
  run : LoopRun
  /-- What the worker of each partition did, up to its panic if it panicked. -/
  diary : Nat → List Deed := fun _ => []
  panicked : Nat → Bool := fun _ => false
  /-- What the workers sent to the gatherer. -/
  sent : List StatusUpdate := []
  /-- What the gatherer's task took from its queue and wrote into the table. -/
  applied : List StatusUpdate := []

namespace Watched

variable {σ : Type}

/-- A run that has not begun. -/
def start (config : LoopConfig) (w : World σ) : Watched σ where
  world := w
  run := { config := config }

/-- Notes the deeds of a partition's worker. -/
def note (s : Watched σ) (p : Nat) (ds : List Deed) : Watched σ :=
  { s with
    diary := if s.panicked p then s.diary else Function.update s.diary p (s.diary p ++ ds)
    sent := s.sent ++ published ds }

/-- The deeds that the next step of a partition's worker completes. -/
def nextDeeds (g : Grid σ) (s : Watched σ) (p : Nat) : List Deed :=
  match s.run.workers[p]? with
  | some t => t.deeds g s.world
  | none => []

/-- The update that the next step of the gatherer's task writes. -/
def nextWrite (s : Watched σ) : List StatusUpdate :=
  match s.run.gatherer.queue with
  | .update key value :: _ => [.update key value]
  | _ => []

/-- A step of a task, and what the observer notes about it. -/
def advance (g : Grid σ) (s : Watched σ) (task : LoopTask) : Option (Watched σ) :=
  (s.run.step? g s.world task).map fun (w, l) =>
    match task with
    | .main => { s with world := w, run := l }
    | .worker p => { s.note p (s.nextDeeds g p) with world := w, run := l }
    | .gather => { s with world := w, run := l, applied := s.applied ++ s.nextWrite }

/-- One step of a run, or of the world outside. -/
inductive Step (g : Grid σ) (S : Outside σ) (s : Watched σ) : Watched σ → Prop
  | move {task : LoopTask} {s' : Watched σ} : s.advance g task = some s' → Step g S s s'
  | stir {w : World σ} : S.stirs s.world w → Step g S s { s with world := w }
  | panic {p : Nat} {message : String} {t t' : Worker} : S.panics →
      s.run.workers[p]? = some t → (Partition.mk s.run.config p).Unwinds message t t' →
      Step g S s { s with
        run := { s.run with workers := s.run.workers.setIfInBounds p t' }
        panicked := Function.update s.panicked p true }

/-- Any number of steps. -/
abbrev Reaches (g : Grid σ) (S : Outside σ) : Watched σ → Watched σ → Prop :=
  Relation.ReflTransGen (Step g S)

/-! ## The workers of a run, those to come included -/

/-- The partitions of a run. -/
abbrev teamOf (config : LoopConfig) (p : Nat) : Partition := ⟨config, p⟩

/-- The workers of a run; one that is not launched yet is at its start. -/
def workerOf (config : LoopConfig) (ts : Array Worker) (p : Nat) : Worker :=
  ts[p]?.getD (LoopRun.newWorker config p)

theorem workerOf_of_getElem? {config : LoopConfig} {ts : Array Worker} {p : Nat} {t : Worker}
    (h : ts[p]? = some t) : workerOf config ts p = t := by
  rw [workerOf, h]
  rfl

/-- Launching a worker adds one that is at its start. -/
theorem workerOf_push {config : LoopConfig} (ts : Array Worker) :
    workerOf config (ts.push (LoopRun.newWorker config ts.size)) = workerOf config ts := by
  funext p
  simp only [workerOf, Array.getElem?_push]
  split
  · rename_i hp
    rw [hp, Array.getElem?_size]
    rfl
  · rfl

theorem workerOf_setIfInBounds {config : LoopConfig} {ts : Array Worker} {p : Nat}
    (hp : p < ts.size) (t : Worker) :
    workerOf config (ts.setIfInBounds p t) = Function.update (workerOf config ts) p t := by
  funext q
  by_cases hq : q = p
  · subst hq
    rw [Function.update_self]
    exact workerOf_of_getElem? (Array.getElem?_setIfInBounds_self_of_lt hp)
  · rw [Function.update_of_ne hq, workerOf, Array.getElem?_setIfInBounds_ne (Ne.symm hq)]
    rfl

/-! ## What a step of a task can be -/

/-- The steps a task of a run can make. -/
inductive Turn (g : Grid σ) (s : Watched σ) : LoopTask → Watched σ → Prop
  | begun {l : LoopRun} : s.run.phase = .bound → s.run.begin = .ok l →
      Turn g s .main { s with world := s.world.log (LoopRun.boundaryWarning l.config), run := l }
  | launched : s.run.phase = .launching → s.run.workers.size < s.run.config.plan.numMaps.toNat →
      Turn g s .main { s with run := { s.run with
        workers := s.run.workers.push (LoopRun.newWorker s.run.config s.run.workers.size) } }
  | joins : s.run.phase = .launching → s.run.config.plan.numMaps.toNat ≤ s.run.workers.size →
      Turn g s .main { s with run := { s.run with phase := .joining } }
  | stops : s.run.phase = .joining → s.run.allEnded = true →
      Turn g s .main { s with
        world := s.world.log (s.run.crashRecords ++ (s.run.gatherer.post .stop).2)
        run := { s.run with gatherer := (s.run.gatherer.post .stop).1, phase := .stopping } }
  | finishes : s.run.phase = .stopping → s.run.gatherer.phase = .finished →
      Turn g s .main { s with run := { s.run with phase := .finished } }
  | works {p : Nat} {t t' : Worker} {w : World σ} {ds : List Deed} :
      s.run.workers[p]? = some t → t.Move g s.world w t' ds →
      Turn g s (.worker p) { s.note p ds with
        world := w
        run := { s.run with
          workers := s.run.workers.setIfInBounds p t'
          gatherer := (published ds).foldl (fun g u => (g.send u).1) s.run.gatherer } }
  | writes {key : String} {value : Json} {rest : List StatusUpdate} :
      s.run.gatherer.phase = .listening → s.run.gatherer.queue = .update key value :: rest →
      Turn g s .gather { s with
        world := s.world.log []
        run := { s.run with gatherer := { s.run.gatherer with
          table := s.run.gatherer.table.insert key value, queue := rest } }
        applied := s.applied ++ [.update key value] }
  | closes {rest : List StatusUpdate} :
      s.run.gatherer.phase = .listening → s.run.gatherer.queue = .stop :: rest →
      Turn g s .gather { s with
        world := s.world.log []
        run := { s.run with gatherer := { s.run.gatherer with
          table := s.run.gatherer.table.insert runnerFinishedKey (.bool true), queue := []
          phase := .finished } } }
  | deserted {logs : List Record} : s.run.gatherer.phase = .listening →
      s.run.gatherer.queue = [] → s.run.gatherer.senders = 0 →
      Turn g s .gather { s with
        world := s.world.log logs
        run := { s.run with gatherer := { s.run.gatherer with queue := [], phase := .finished } } }

variable {g : Grid σ} {s s' : Watched σ}

theorem turn_of_advance_main (h : s.advance g .main = some s') : Turn g s .main s' := by
  -- One case for each phase of the main task; it makes no step once it has finished.
  simp only [advance, LoopRun.step?, Option.map_eq_some_iff] at h
  obtain ⟨⟨w, l⟩, hl, rfl⟩ := h
  unfold LoopRun.mainStep? at hl
  split at hl
  · rename_i hphase
    split at hl
    · rename_i l' hbegin
      cases hl
      exact .begun hphase hbegin
    · cases hl
  · rename_i hphase
    split at hl
    · rename_i hlt
      cases hl
      exact .launched hphase hlt
    · rename_i hge
      cases hl
      exact .joins hphase (by omega)
  · rename_i hphase
    split at hl
    · rename_i hall
      cases hl
      exact .stops hphase hall
    · cases hl
  · rename_i hphase
    split at hl
    · rename_i hfin
      cases hl
      exact .finishes hphase hfin
    · cases hl
  · cases hl

theorem turn_of_advance_worker {p : Nat} (h : s.advance g (.worker p) = some s') :
    Turn g s (.worker p) s' := by
  simp only [advance, LoopRun.step?, LoopRun.workerStep?, Option.map_eq_some_iff,
    Option.bind_eq_some_iff] at h
  obtain ⟨⟨w, l⟩, ⟨t, ht, ⟨v, t', us⟩, hstep, hl⟩, rfl⟩ := h
  cases hl
  -- What the run posts to the gatherer is what the observer notes as published.
  obtain ⟨hmove, rfl⟩ := Worker.move_of_step? hstep
  simp only [nextDeeds, ht]
  exact .works ht hmove

theorem turn_of_advance_gather (h : s.advance g .gather = some s') : Turn g s .gather s' := by
  simp only [advance, LoopRun.step?, LoopRun.gatherStep?, Option.map_eq_some_iff] at h
  obtain ⟨⟨w, l⟩, ⟨⟨t, logs⟩, ht, hl⟩, rfl⟩ := h
  cases hl
  -- The gatherer takes the first of its queue, and looks at its senders only when there is none.
  unfold Gatherer.step? at ht
  split at ht
  · rename_i hphase
    split at ht
    · rename_i key value rest hq
      cases ht
      simp only [nextWrite, hq]
      exact .writes hphase hq
    · rename_i rest hq
      cases ht
      simp only [nextWrite, hq, List.append_nil]
      exact .closes hphase hq
    · rename_i hq
      split at ht
      · rename_i hsenders
        cases ht
        simp only [nextWrite, hq, List.append_nil]
        exact .deserted hphase hq hsenders
      · cases ht
  · cases ht

/-- The turns are all the steps there are. -/
theorem turn_of_advance {task : LoopTask} (h : s.advance g task = some s') :
    Turn g s task s' := by
  cases task with
  | main => exact turn_of_advance_main h
  | worker p => exact turn_of_advance_worker h
  | gather => exact turn_of_advance_gather h

end Watched

end GridBench
