/-
  GridBench.Proofs.Run.Alone

  A run that is carried out alone is one of its runs.  Alone, the workers of a
  run come one after the other, each from its start to its end, and what they
  publish is gathered at once; among others, the tasks take their steps in any
  order.  The former is one of these orders: a worker is launched when those
  before it have ended, time passes as long as it waits, and the gatherer moves
  whenever something is queued.  Main statement: `LoopRun.alone_goes`.
-/
import GridBench.Proofs.Run.Ending

namespace GridBench

variable {σ : Type} {g : Grid σ}

namespace World

@[simp] theorem log_nil (w : World σ) : w.log [] = w := by simp [log]

end World

/-- Somebody who waits for an answer as long as it takes, and is not cancelled, gets it. -/
theorem Flight.answer?_passUntil {w : World σ} {r : Request}
    (hrun : ¬ (w.cancelled && r.isCancellable) = true) (f : Flight) :
    f.answer? g (w.passUntil f.wakeTime) r = some (f.land g (w.passUntil f.wakeTime) r) :=
  (if_neg hrun).trans (if_pos (Nat.le_max_right _ _))

/-! ## Steps without an observer -/

namespace LoopRun

/-- A step of a task of a run, or time passes. -/
inductive Step (g : Grid σ) : World σ × LoopRun → World σ × LoopRun → Prop
  | task {w w' : World σ} {l l' : LoopRun} (task : LoopTask) :
      l.step? g w task = some (w', l') → Step g (w, l) (w', l')
  | wait (w : World σ) (l : LoopRun) (moment : Nat) : Step g (w, l) (w.passUntil moment, l)

/-- Any number of steps. -/
abbrev Goes (g : Grid σ) : World σ × LoopRun → World σ × LoopRun → Prop :=
  Relation.ReflTransGen (Step g)

/-- The run with another worker for a partition, and another gatherer. -/
def place (l : LoopRun) (p : Nat) (t : Worker) (gatherer : Gatherer) : LoopRun :=
  { l with workers := l.workers.setIfInBounds p t, gatherer := gatherer }

variable {l : LoopRun} {p : Nat} {t t' : Worker} {w w' : World σ}

theorem place_place (l : LoopRun) (p : Nat) (t t' : Worker) (a a' : Gatherer) :
    (l.place p t a).place p t' a' = l.place p t' a' := by
  simp [place]

theorem place_self (ht : l.workers[p]? = some t) : l.place p t l.gatherer = l := by
  obtain ⟨hp, rfl⟩ := Array.getElem?_eq_some_iff.mp ht
  simp [place, Array.setIfInBounds, hp]

theorem workers_place (ht : l.workers[p]? = some t) (t' : Worker) (a : Gatherer) :
    (l.place p t' a).workers[p]? = some t' := by
  obtain ⟨hp, -⟩ := Array.getElem?_eq_some_iff.mp ht
  exact Array.getElem?_setIfInBounds_self_of_lt hp

/-- A step of a worker is one of the run. -/
theorem goes_worker {us : List StatusUpdate} (ht : l.workers[p]? = some t)
    (h : t.step? g w = some (w', t', us)) :
    Goes g (w, l) (w', l.place p t' (us.foldl (fun a u => (a.send u).1) l.gatherer)) := by
  refine .single (.task (.worker p) ?_)
  rw [step?, workerStep?, ht, Option.bind_some, h]
  rfl

/-- A worker makes a step without publishing anything. -/
theorem goes_quiet (ht : l.workers[p]? = some t) (h : t.step? g w = some (w', t', [])) :
    Goes g (w, l) (w', l.place p t' l.gatherer) :=
  goes_worker ht h

/-- A worker that was put into the run makes a step without publishing anything. -/
theorem goes_placed {t'' : Worker} {a : Gatherer} (ht : l.workers[p]? = some t)
    (h : t'.step? g w = some (w', t'', [])) :
    Goes g (w, l.place p t' a) (w', l.place p t'' a) := by
  have hgoes := goes_quiet (workers_place ht t' a) h
  rw [place_place] at hgoes
  exact hgoes

/-- A step of the gatherer that logs nothing is one of the run. -/
theorem goes_gather {a : Gatherer} (h : l.gatherer.step? = some (a, [])) :
    Goes g (w, l) (w, { l with gatherer := a }) := by
  refine .single (.task .gather ?_)
  rw [step?, gatherStep?, h]
  exact congrArg (fun v => some (v, _)) w.log_nil

end LoopRun

/-- A run under observation goes where it goes without. -/
theorem Watched.exists_reaches_of_goes {s : Watched σ} {x : World σ × LoopRun}
    (h : LoopRun.Goes g (s.world, s.run) x) :
    ∃ s', Reaches g (.still σ) s s' ∧ s'.world = x.1 ∧ s'.run = x.2 := by
  induction h with
  | refl => exact ⟨s, .refl, rfl, rfl⟩
  | tail _ hstep ih =>
    obtain ⟨s₁, hs₁, hworld, hrun⟩ := ih
    cases hstep with
    | @task w w' l l' task hstep =>
      obtain ⟨rfl, rfl⟩ := And.intro hworld hrun
      have hmove : ∃ s', s₁.advance g task = some s' ∧ s'.world = w' ∧ s'.run = l' := by
        rw [advance, hstep]
        cases task with
        | main | worker | gather => exact ⟨_, rfl, rfl, rfl⟩
      obtain ⟨s', hs', hw', hl'⟩ := hmove
      exact ⟨s', hs₁.tail (.move hs'), hw', hl'⟩
    | wait w l moment =>
      obtain ⟨rfl, rfl⟩ := And.intro hworld hrun
      exact ⟨_, hs₁.tail (.stir ⟨moment, rfl⟩), rfl, rfl⟩

/-! ## Gathering at once -/

namespace Gatherer

/-- Whether a gatherer listens, with nothing queued. -/
structure Attentive (a : Gatherer) : Prop where
  listening : a.phase = .listening
  queue : a.queue = []
  senders : a.senders ≠ 0

variable {a : Gatherer}

/-- The gatherer after one more fact. -/
def learned (a : Gatherer) (key : String) (value : Json) : Gatherer :=
  { a with table := a.table.insert key value }

theorem Attentive.learned (h : a.Attentive) (key : String) (value : Json) :
    (a.learned key value).Attentive := ⟨h.listening, h.queue, h.senders⟩

theorem Attentive.send (h : a.Attentive) (u : StatusUpdate) :
    a.send u = ({ a with queue := [u] }, true) := by
  simp [Gatherer.send, isOpen, h.listening, h.queue]

theorem Attentive.post (h : a.Attentive) (u : StatusUpdate) :
    a.post u = ({ a with queue := [u] }, []) := by
  rw [Gatherer.post, h.send]
  rfl

theorem Attentive.step?_update (h : a.Attentive) (key : String) (value : Json) :
    ({ a with queue := [.update key value] } : Gatherer).step? =
      some (a.learned key value, []) := by
  obtain ⟨table, queue, phase, senders⟩ := a
  obtain ⟨rfl, rfl⟩ := And.intro h.listening h.queue
  rfl

theorem Attentive.step?_none (h : a.Attentive) : a.step? = none := by
  rw [step?, if_pos h.listening, h.queue]
  exact if_neg h.senders

/-- The gatherer after its last write. -/
def closed (a : Gatherer) : Gatherer :=
  { a with table := a.table.insert runnerFinishedKey (.bool true), queue := [], phase := .finished }

theorem Attentive.step?_stop (h : a.Attentive) :
    ({ a with queue := [.stop] } : Gatherer).step? = some (a.closed, []) := by
  obtain ⟨table, queue, phase, senders⟩ := a
  obtain rfl := h.listening
  rfl

theorem Attentive.gather_update (h : a.Attentive) (w : World σ) (key : String) (value : Json) :
    a.gather w (.update key value) = (a.learned key value, w) := by
  simp [gather, h.post, settle, drain, h.step?_update, (h.learned key value).step?_none]

theorem Attentive.gather_stop (h : a.Attentive) (w : World σ) :
    a.gather w .stop = (a.closed, w) := by
  have hdone : a.closed.step? = none := rfl
  simp [gather, h.post, settle, drain, h.step?_stop, hdone]

end Gatherer

/-! ## One worker -/

/-- Effects that do not ask the gatherer to stop. -/
def Effect.Modest : Effect → Prop
  | .publish .stop => False
  | _ => True

namespace Proc

open LoopRun Relation

variable {l : LoopRun} {p : Nat} {w : World σ}

/-- A worker that sends a request has its answer once it has waited for it. -/
theorem goes_ask {r : Request} {withinMs : Option Nat}
    {k : Except Fault r.Answer → Proc (Option String)}
    (ht : l.workers[p]? = some (.running (.op (.ask r withinMs) k))) :
    Goes g (w, l) ((r.exchange g w withinMs).2,
      l.place p (.running (k (r.exchange g w withinMs).1)) l.gatherer) := by
  by_cases hrefused : (w.cancelled && r.isCancellable) = true
  · rw [Request.exchange, if_pos hrefused]
    refine goes_quiet ht ?_
    rw [Worker.step?, Worker.send, if_pos hrefused]
  · rw [Request.exchange, if_neg hrefused]
    have hsent := goes_quiet (g := g) (w := w) ht (by
      rw [Worker.step?, Worker.send, if_neg hrefused])
    let f : Flight := ⟨(g.start w.grid r).2.1, w.clock, w.clock + (g.start w.grid r).1, withinMs⟩
    refine (hsent.tail (.wait _ _ f.wakeTime)).trans (goes_placed ht ?_)
    let w' : World σ := { w with grid := (g.start w.grid r).2.2 }
    exact congrArg (Option.map _) (Flight.answer?_passUntil (w := w') hrefused f)

/-- A worker that is alone does what its program does alone, and what it publishes is gathered. -/
theorem alone_goes {q : Proc (Option String)}
    (hq : q.Keeps (.plain Effect.Modest) (fun _ _ => True) ())
    (ht : l.workers[p]? = some (.running q)) (hl : l.gatherer.Attentive) :
    (q.alone g w l.gatherer).2.2.Attentive ∧
      Goes g (w, l) ((q.alone g w l.gatherer).2.1,
        l.place p (.running (.done (q.alone g w l.gatherer).1)) (q.alone g w l.gatherer).2.2) := by
  induction q generalizing w l with
  | done a =>
    refine ⟨hl, ?_⟩
    show Goes g (w, l) (w, l.place p (.running (.done a)) l.gatherer)
    rw [place_self ht]
  | op e k ih =>
    -- After the steps up to the reply, the rest is the induction hypothesis.
    have hnext {w' : World σ} {r : e.Reply} {a : Gatherer} (ha : a.Attentive)
        (hgoes : Goes g (w, l) (w', l.place p (.running (k r)) a)) :
        ((k r).alone g w' a).2.2.Attentive ∧
          Goes g (w, l) (((k r).alone g w' a).2.1,
            l.place p (.running (.done ((k r).alone g w' a).1)) ((k r).alone g w' a).2.2) := by
      obtain ⟨hrest, hgoes'⟩ := ih r (hq.2 r trivial) (w := w') (workers_place ht _ a) ha
      rw [place_place] at hgoes'
      exact ⟨hrest, hgoes.trans hgoes'⟩
    cases e with
    | ask r withinMs => exact hnext hl (goes_ask ht)
    | pause ms =>
      refine hnext hl (((goes_quiet ht rfl).tail (.wait _ _ (w.clock + ms))).trans
        (goes_placed ht ?_))
      exact if_pos (Nat.le_max_right _ _)
    | clock => exact hnext hl (goes_quiet ht rfl)
    | pick c => exact hnext hl (goes_quiet ht rfl)
    | log r => exact hnext hl (goes_quiet ht rfl)
    | publish u =>
      cases u with
      | stop => exact hq.1.elim
      | update key value =>
        rw [alone, hl.gather_update]
        refine hnext (r := ()) (hl.learned key value) ((goes_worker ht rfl).trans (goes_gather ?_))
        show (l.gatherer.send (.update key value)).1.step? = _
        rw [hl.send]
        exact hl.step?_update key value

/-- A worker publishes counts and nothing else. -/
theorem work_modest (p : Partition) :
    p.work.Keeps (.plain Effect.Modest) (fun _ _ => True) () := by
  refine p.work_keeps.to_plain (fun _ _ => trivial) fun t e he => ?_
  cases e with
  | publish u =>
    obtain ⟨n, rfl | rfl⟩ := he
    · trivial
    · trivial
  | ask | pause | clock | pick | log => trivial

end Proc

/-! ## All workers, one after the other -/

namespace LoopRun

variable {l : LoopRun} {w : World σ}

theorem mainStep?_launch (hphase : l.phase = .launching)
    (hlt : l.workers.size < l.config.plan.numMaps.toNat) :
    l.mainStep? w = some (w, { l with
      workers := l.workers.push (newWorker l.config l.workers.size) }) := by
  obtain ⟨config, gatherer, phase, workers⟩ := l
  cases hphase
  exact if_pos hlt

/-- What holds of a run of which some workers have been carried out. -/
structure Between (l : LoopRun) : Prop where
  launching : l.phase = .launching
  ended : l.allEnded = true
  attentive : l.gatherer.Attentive

/-- The next worker is launched and carried out. -/
theorem Between.goes (h : l.Between) (hlt : l.workers.size < l.config.plan.numMaps.toNat) :
    let r := (Partition.work ⟨l.config, l.workers.size⟩).alone g w l.gatherer
    let l' : LoopRun :=
      { l with workers := l.workers.push (.running (.done r.1)), gatherer := r.2.2 }
    Goes g (w, l) (r.2.1, l') ∧ l'.Between := by
  intro r l'
  let l₁ : LoopRun := { l with workers := l.workers.push (newWorker l.config l.workers.size) }
  have hlaunch : Goes g (w, l) (w, l₁) := by
    exact .single (.task .main (mainStep?_launch h.launching hlt))
  have hworker : l₁.workers[l.workers.size]? = some (newWorker l.config l.workers.size) :=
    Array.getElem?_push_size
  obtain ⟨hattentive, hgoes⟩ :=
    Proc.alone_goes (g := g) (w := w) (Proc.work_modest _) hworker h.attentive
  have hlast : l₁.place l.workers.size (.running (.done r.1)) r.2.2 = l' := by
    simp [place, l', l₁, Array.setIfInBounds, Array.set_push]
  refine ⟨hlaunch.trans (hlast ▸ hgoes), h.launching, ?_, hattentive⟩
  have hended := h.ended
  rw [allEnded] at hended ⊢
  rw [Array.all_push, hended]
  rfl

/-- Workers that are carried out one after the other. -/
theorem Between.workersAlone_goes {n : Nat} {v : World σ} {a : Gatherer} {ts : Array Worker}
    (h : l.Between) (hn : l.workers.size + n = l.config.plan.numMaps.toNat)
    (halone : workersAlone g l.config (List.range' l.workers.size n) w l.gatherer l.workers =
      (v, a, ts)) :
    Goes g (w, l) (v, { l with workers := ts, gatherer := a }) ∧
      ({ l with workers := ts, gatherer := a } : LoopRun).Between ∧
      ts.size = l.config.plan.numMaps.toNat := by
  induction n generalizing w l with
  | zero =>
    cases halone
    exact ⟨.refl, h, hn⟩
  | succ n ih =>
    obtain ⟨hgoes, hbetween⟩ := h.goes (g := g) (w := w) (by omega)
    have hsize (t : Worker) : (l.workers.push t).size = l.workers.size + 1 := Array.size_push t
    obtain ⟨hrest, hlast⟩ := ih hbetween
      (((congrArg (· + n) (hsize _)).trans (Nat.succ_add_eq_add_succ ..)).trans hn)
      (by rw [hsize]; exact halone)
    exact ⟨hgoes.trans hrest, hlast⟩

/-- Once all workers have been carried out, the run comes to its end. -/
theorem Between.closes (h : l.Between) (hsize : l.workers.size = l.config.plan.numMaps.toNat) :
    Goes g (w, l) (w.log l.crashRecords,
      { l with gatherer := l.gatherer.closed, phase := .finished }) := by
  have hjoins : l.mainStep? w = some (w, { l with phase := .joining }) := by
    obtain ⟨config, gatherer, phase, workers⟩ := l
    cases h.launching
    exact if_neg (Nat.not_lt.mpr (Nat.le_of_eq hsize.symm))
  have hstops : ({ l with phase := .joining } : LoopRun).mainStep? w =
      some (w.log l.crashRecords,
        { l with gatherer := { l.gatherer with queue := [.stop] }, phase := .stopping }) := by
    refine (if_pos h.ended).trans ?_
    show some (w.log (l.crashRecords ++ (l.gatherer.post .stop).2),
      ({ l with gatherer := (l.gatherer.post .stop).1, phase := .stopping } : LoopRun)) = _
    rw [h.attentive.post, List.append_nil]
  have hcloses : Goes g (w.log l.crashRecords,
        { l with gatherer := { l.gatherer with queue := [.stop] }, phase := .stopping })
      (w.log l.crashRecords, { l with gatherer := l.gatherer.closed, phase := .stopping }) :=
    goes_gather h.attentive.step?_stop
  refine ((Relation.ReflTransGen.single (.task .main hjoins)).tail (.task .main hstops)).trans ?_
  exact hcloses.tail (.task .main rfl)

/-- A run that is carried out alone goes to its end. -/
theorem alone_goes (g : Grid σ) (w : World σ) (config : LoopConfig) :
    ∃ w' l', LoopRun.alone g w { config := config } = .ok (w', l') ∧ l'.phase = .finished ∧
      Goes g (w, { config := config }) (w', l') := by
  let begun : LoopRun :=
    { config := config, gatherer := ⟨firstTable config.plan, [], .listening, 1⟩,
      phase := .launching }
  have hbegin : ({ config := config } : LoopRun).begin = .ok begun := begin_fresh config
  have hfirst : Goes g (w, { config := config }) (w.log (boundaryWarning config), begun) := by
    refine .single (.task .main ?_)
    rw [step?, mainStep?, hbegin]
  have hbetween : begun.Between :=
    ⟨rfl, by simp [allEnded, begun], ⟨rfl, rfl, Nat.one_ne_zero⟩⟩
  obtain ⟨⟨v, a, ts⟩, hworkers⟩ : ∃ r, workersAlone g begun.config begun.config.plan.partitions
      (w.log (boundaryWarning begun.config)) begun.gatherer begun.workers = r := ⟨_, rfl⟩
  obtain ⟨hgoes, hlast, hsize⟩ := hbetween.workersAlone_goes (Nat.zero_add _)
    ((congrArg (workersAlone g config · _ _ _) List.range_eq_range'.symm).trans hworkers)
  refine ⟨_, _, ?_, rfl, hfirst.trans (hgoes.trans (hlast.closes hsize))⟩
  rw [alone, hbegin]
  have hstop (v : World σ) : a.gather v .stop = (a.closed, v) := hlast.attentive.gather_stop v
  simp only [bind, Except.bind, pure, Except.pure, hworkers, hstop]
  rfl

end LoopRun

end GridBench
