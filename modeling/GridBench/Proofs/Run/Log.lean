/-
  GridBench.Proofs.Run.Log

  What the workers of a run did, step by step.  A log has for each worker the
  steps it made (`Entry`), each with the world before and after it.  It shows
  more than a diary: the requests that were sent, whether or not an answer
  came, and what became of the world.

    * `Worker.Path` is the way of one worker along its log, whatever happens to
      the world between two of its steps.
    * `Watched.ReachesBy` is the way of a whole run, with the log of each of its
      workers.  A worker may panic in its rounds; the panic is caught, and it
      goes on by giving its handle back.
    * `Partition.Life` ties the two: what a worker of a run did is one path, or
      two of them with a panic between (`ReachesBy.chronicled`).
-/
import GridBench.Proofs.Run.Ending

namespace GridBench

/-- A step in a log: the worker that made it, and the world before and after it. -/
structure Entry (σ : Type) where
  worker : Worker
  before : World σ
  after : World σ

/-- A deed in a log, with the step that completed it. -/
structure Act (σ : Type) where
  deed : Deed
  entry : Entry σ

variable {σ : Type}

/-- The deeds of a worker as its log shows them. -/
def actsOf (g : Grid σ) (L : List (Entry σ)) : List (Act σ) :=
  L.flatMap fun e => (e.worker.deeds g e.before).map fun d => ⟨d, e⟩

/-- The deeds alone. -/
def deedsOf (as : List (Act σ)) : List Deed := as.map Act.deed

@[simp] theorem actsOf_append (g : Grid σ) (L L' : List (Entry σ)) :
    actsOf g (L ++ L') = actsOf g L ++ actsOf g L' := List.flatMap_append

@[simp] theorem actsOf_singleton (g : Grid σ) (e : Entry σ) :
    actsOf g [e] = (e.worker.deeds g e.before).map fun d => ⟨d, e⟩ := List.flatMap_singleton _ _

@[simp] theorem deedsOf_append (as bs : List (Act σ)) :
    deedsOf (as ++ bs) = deedsOf as ++ deedsOf bs := List.map_append

/-- One more step adds its deeds. -/
theorem deedsOf_actsOf_concat (g : Grid σ) (L : List (Entry σ)) (e : Entry σ) :
    deedsOf (actsOf g (L ++ [e])) = deedsOf (actsOf g L) ++ e.worker.deeds g e.before := by
  rw [actsOf_append, deedsOf_append, actsOf_singleton, deedsOf, deedsOf, List.map_map]
  exact congrArg _ (List.map_id _)

/-- Deeds in two parts are those of acts in two parts. -/
theorem exists_of_deedsOf_eq_append {as : List (Act σ)} {ds es : List Deed}
    (h : deedsOf as = ds ++ es) :
    ∃ bs cs, as = bs ++ cs ∧ deedsOf bs = ds ∧ deedsOf cs = es :=
  List.map_eq_append_iff.mp h

/-- An act was completed by a step of the log. -/
theorem entry_mem_of_mem_actsOf {g : Grid σ} {L : List (Entry σ)} {a : Act σ}
    (h : a ∈ actsOf g L) : a.entry ∈ L := by
  obtain ⟨e, he, hae⟩ := List.mem_flatMap.mp h
  obtain ⟨d, _, rfl⟩ := List.mem_map.mp hae
  exact he

/-! ## Requests on their way -/

namespace Worker

variable {g : Grid σ} {w w' : World σ} {t t' : Worker} {us : List StatusUpdate}

/-- The request that a worker's next step sends. -/
def sends (w : World σ) : Worker → List Request
  | .running (.op (.ask r _) _) => if w.cancelled && r.isCancellable then [] else [r]
  | _ => []

/-- The request that a worker waits for. -/
def pending : Worker → List Request
  | .waiting r _ _ => [r]
  | _ => []

/-- Behind a step a worker waits for what the step sent, and for nothing else. -/
theorem pending_of_step? (h : t.step? g w = some (w', t', us)) : t'.pending = t.sends w := by
  match t with
  | .running (.done _) => cases h
  | .running (.op (.ask r withinMs) k) =>
    simp only [step?, send] at h
    simp only [sends]
    split at h
    · rename_i hc
      cases h
      rw [if_pos hc]
      rfl
    · rename_i hc
      cases h
      rw [if_neg hc]
      rfl
  | .running (.op (.pause _) _) | .running (.op .clock _) | .running (.op (.pick _) _)
  | .running (.op (.log _) _) | .running (.op (.publish _) _) =>
    cases h
    rfl
  | .pausing wakeAt p =>
    simp only [step?] at h
    split at h
    · cases h
      rfl
    · cases h
  | .waiting r f k =>
    simp only [step?, Option.map_eq_some_iff] at h
    obtain ⟨⟨a, v⟩, _, hv⟩ := h
    cases hv
    rfl

theorem pending_of_hasEnded (h : t.hasEnded = true) : t.pending = [] := by
  match t with
  | .running _ | .pausing _ _ => rfl
  | .waiting .. => cases h

end Worker

/-- The requests sent in a log. -/
def requestsOf (L : List (Entry σ)) : List Request := L.flatMap fun e => e.worker.sends e.before

/-- The requests whose answers came in a log. -/
def answered (as : List (Act σ)) : List Request := as.flatMap fun a => a.entry.worker.pending

@[simp] theorem requestsOf_append (L L' : List (Entry σ)) :
    requestsOf (L ++ L') = requestsOf L ++ requestsOf L' := List.flatMap_append

@[simp] theorem requestsOf_singleton (e : Entry σ) : requestsOf [e] = e.worker.sends e.before :=
  List.flatMap_singleton _ _

@[simp] theorem answered_append (as bs : List (Act σ)) :
    answered (as ++ bs) = answered as ++ answered bs := List.flatMap_append

/-! ## The way of one worker -/

/-- What a step can have completed: the answer to a request that was sent, the refusal of one that
    was not, because of a cancellation, or something that has nothing to do with the grid. -/
inductive Act.Genuine (g : Grid σ) : Act σ → Prop
  | answered {r f k a w w'} : f.answer? g w r = some (a, w') →
      Genuine g ⟨⟨.ask r f.withinMs, a⟩, ⟨.waiting r f k, w, w'⟩⟩
  | refused {r withinMs k w} : w.cancelled = true → r.isCancellable = true →
      Genuine g ⟨⟨.ask r withinMs, .error .cancelled⟩, ⟨.running (.op (.ask r withinMs) k), w, w⟩⟩
  | other {e k reply w w'} : e.isAsk = false → w'.grid = w.grid →
      (∀ p n, (⟨e, reply⟩ : Deed) = ⟨.pick p, n⟩ → n = (p.take w.draws).1) →
      Genuine g ⟨⟨e, reply⟩, ⟨.running (.op e k), w, w'⟩⟩

namespace Worker

variable {g : Grid σ} {w w' : World σ} {t t' t'' : Worker} {us : List StatusUpdate}

/-- The worker goes from `t` to `t'` by the steps of a log.  Between two of them anything may
    happen to the world. -/
inductive Path (g : Grid σ) (t : Worker) : List (Entry σ) → Worker → Prop
  | nil : Path g t [] t
  | step {L : List (Entry σ)} {t' t'' : Worker} {w w' : World σ} {us : List StatusUpdate} :
      Path g t L t' → t'.step? g w = some (w', t'', us) → Path g t (L ++ [⟨t', w, w'⟩]) t''

/-- The deeds of a step are genuine. -/
theorem genuine_of_step? (h : t.step? g w = some (w', t', us)) {d : Deed}
    (hd : d ∈ t.deeds g w) : Act.Genuine g ⟨d, ⟨t, w, w'⟩⟩ := by
  match t with
  | .running (.done _) => cases h
  | .running (.op (.ask r withinMs) k) =>
    simp only [step?, send] at h
    simp only [deeds] at hd
    split at h
    · rename_i hc
      cases h
      rw [if_pos hc, List.mem_singleton] at hd
      rw [Bool.and_eq_true] at hc
      subst hd
      exact .refused hc.1 hc.2
    · rename_i hc
      rw [if_neg hc] at hd
      cases hd
  | .running (.op (.pick p) k) =>
    cases h
    obtain rfl := List.mem_singleton.mp hd
    refine .other rfl rfl fun q n hq => ?_
    cases hq
    rfl
  | .running (.op (.pause _) _) | .running (.op .clock _) | .running (.op (.log _) _)
  | .running (.op (.publish _) _) =>
    cases h
    obtain rfl := List.mem_singleton.mp hd
    exact .other rfl rfl fun q n hq => by cases hq
  | .pausing _ _ => cases hd
  | .waiting r f k =>
    simp only [step?, Option.map_eq_some_iff] at h
    obtain ⟨⟨a, v⟩, ha, hv⟩ := h
    cases hv
    simp only [deeds, ha, Option.map_some, Option.toList_some, List.mem_singleton] at hd
    subst hd
    exact .answered ha

/-- Whatever a worker waited for is answered by its step. -/
theorem answered_of_step? (h : t.step? g w = some (w', t', us)) :
    answered (actsOf g [⟨t, w, w'⟩]) = t.pending := by
  match t with
  | .running (.done _) | .pausing _ _ => rfl
  | .running (.op (.ask _ _) _) =>
    simp only [actsOf_singleton, deeds, answered]
    split <;> rfl
  | .running (.op (.pause _) _) | .running (.op .clock _) | .running (.op (.pick _) _)
  | .running (.op (.log _) _) | .running (.op (.publish _) _) => rfl
  | .waiting r f k =>
    simp only [step?, Option.map_eq_some_iff] at h
    obtain ⟨⟨a, v⟩, ha, _⟩ := h
    simp [deeds, ha, answered, pending]

namespace Path

theorem plays {L : List (Entry σ)} (h : Path g t L t') :
    Proc.Plays t.program (deedsOf (actsOf g L)) t'.program := by
  induction h with
  | nil => exact .nil _
  | @step L t' t'' w w' us _ hstep ih =>
    rw [deedsOf_actsOf_concat]
    exact ih.append (move_of_step? hstep).1.plays

/-- Every request that was sent was answered, but for one that the worker still waits for. -/
theorem requestsOf_eq {L : List (Entry σ)} (h : Path g t L t') :
    t.pending ++ requestsOf L = answered (actsOf g L) ++ t'.pending := by
  induction h with
  | nil => rw [requestsOf, List.flatMap_nil, List.append_nil]; rfl
  | @step L t' t'' w w' us _ hstep ih =>
    rw [requestsOf_append, requestsOf_singleton, ← List.append_assoc, ih, actsOf_append,
      answered_append, answered_of_step? hstep, pending_of_step? hstep]

theorem genuine {L : List (Entry σ)} (h : Path g t L t') : ∀ a ∈ actsOf g L, a.Genuine g := by
  induction h with
  | nil => exact fun a ha => absurd ha List.not_mem_nil
  | @step L t' t'' w w' us _ hstep ih =>
    intro a ha
    rw [actsOf_append, List.mem_append] at ha
    rcases ha with ha | ha
    · exact ih a ha
    · rw [actsOf_singleton, List.mem_map] at ha
      obtain ⟨d, hd, rfl⟩ := ha
      exact genuine_of_step? hstep hd

/-- Each entry of a log is a step. -/
theorem step_of_mem {L : List (Entry σ)} (h : Path g t L t') {e : Entry σ} (he : e ∈ L) :
    ∃ t₁ us, e.worker.step? g e.before = some (e.after, t₁, us) := by
  induction h with
  | nil => cases he
  | @step L t' t'' w w' us _ hstep ih =>
    rcases List.mem_append.mp he with he | he
    · exact ih he
    · rw [List.mem_singleton] at he
      subst he
      exact ⟨t'', us, hstep⟩

end Path

end Worker

/-! ## The way of a run -/

namespace Watched

/-- The logs of the workers of a run. -/
abbrev Log (σ : Type) := Nat → List (Entry σ)

/-- The worker of a partition is in its rounds, with the given handle. -/
def InRounds (s : Watched σ) (p : Nat) (h : Handle) : Prop :=
  s.panicked p = false ∧ ∃ ds₁ ds₂ e k, s.diary p = ds₁ ++ ds₂ ∧
    Proc.Plays (s.partition p).enter ds₁ (.done (.ok h)) ∧
    Proc.Plays ((s.partition p).rounds h s.run.config.plan.numRuns.toNat 0 0 0) ds₂ (.op e k)

/-- The run after a panic that was caught: the worker goes on by giving its handle back. -/
def catchPanic (s : Watched σ) (p : Nat) (h : Handle) (message : String) : Watched σ :=
  { s with
    run := { s.run with
      workers := s.run.workers.setIfInBounds p
        (.running ((s.partition p).leave h (some message))) }
    panicked := Function.update s.panicked p true }

/-- The log with what the step of a task adds to it, where `w` is the world after the step. -/
def logged (s : Watched σ) (task : LoopTask) (w : World σ) (log : Log σ) : Log σ :=
  match task with
  | .worker p =>
    match s.run.workers[p]? with
    | some t => Function.update log p (log p ++ [⟨t, s.world, w⟩])
    | none => log
  | _ => log

/-- Any number of steps, with the log of what the workers did.  Only in its rounds may a worker
    panic. -/
inductive ReachesBy (g : Grid σ) (S : Outside σ) (s : Watched σ) : Log σ → Watched σ → Prop
  | refl : ReachesBy g S s (fun _ => []) s
  | move {log : Log σ} {s₁ s₂ : Watched σ} {task : LoopTask} : ReachesBy g S s log s₁ →
      s₁.advance g task = some s₂ → ReachesBy g S s (s₁.logged task s₂.world log) s₂
  | stir {log : Log σ} {s₁ : Watched σ} {w : World σ} : ReachesBy g S s log s₁ →
      S.stirs s₁.world w → ReachesBy g S s log { s₁ with world := w }
  | panic {log : Log σ} {s₁ : Watched σ} {p : Nat} {h : Handle} {message : String} :
      ReachesBy g S s log s₁ → S.panics → s₁.InRounds p h →
      ReachesBy g S s log (s₁.catchPanic p h message)

variable {config : LoopConfig} {g : Grid σ} {S : Outside σ} {s s' s'' : Watched σ}
variable {log log' : Log σ} {w : World σ}

theorem logged_append (task : LoopTask) (w : World σ) (log log' : Log σ) :
    s.logged task w (fun p => log p ++ log' p) = fun p => log p ++ s.logged task w log' p := by
  cases task with
  | main | gather => rfl
  | worker p =>
    cases ht : s.run.workers[p]? with
    | none => simp only [logged, ht]
    | some t =>
      simp only [logged, ht]
      funext q
      by_cases hq : q = p
      · rw [hq, Function.update_self, Function.update_self, List.append_assoc]
      · rw [Function.update_of_ne hq, Function.update_of_ne hq]

theorem ReachesBy.trans (h : ReachesBy g S s log s') (h' : ReachesBy g S s' log' s'') :
    ReachesBy g S s (fun p => log p ++ log' p) s'' := by
  induction h' with
  | refl =>
    simp only [List.append_nil]
    exact h
  | move _ hmove ih =>
    rw [← logged_append]
    exact ih.move hmove
  | stir _ hstir ih => exact ih.stir hstir
  | panic _ hpanics hin ih => exact ih.panic hpanics hin

/-- The steps of tasks alone, with the log they leave. -/
theorem exists_log_of_moves (h : Relation.ReflTransGen (Moves g S) s s') :
    ∃ log, ReachesBy g S s log s' := by
  induction h with
  | refl => exact ⟨_, .refl⟩
  | tail _ hmove ih =>
    obtain ⟨log, hlog⟩ := ih
    obtain ⟨w, task, hw, hstep⟩ := hmove
    -- Before the step, the world may be stirred.
    have hstirred : ∀ {s₁ : Watched σ} {v : World σ}, ReachesBy g S s log s₁ →
        Relation.ReflTransGen S.stirs s₁.world v → ReachesBy g S s log { s₁ with world := v } := by
      intro s₁ v h₁ hv
      induction hv with
      | refl => exact h₁
      | tail _ hstir ih => exact ih.stir hstir
    exact ⟨_, (hstirred hlog hw).move hstep⟩

/-! ## What a step of a worker changes -/

/-- A step of a worker's task, by the step of the worker. -/
theorem step?_of_advance {p : Nat} (h : s.advance g (.worker p) = some s') :
    ∃ t t' us, s.run.workers[p]? = some t ∧ t.step? g s.world = some (s'.world, t', us) ∧
      s'.run.workers = s.run.workers.setIfInBounds p t' ∧ s'.run.config = s.run.config ∧
      s'.panicked = s.panicked ∧ s'.diary = (s.note p (t.deeds g s.world)).diary := by
  simp only [advance, LoopRun.step?, LoopRun.workerStep?, Option.map_eq_some_iff,
    Option.bind_eq_some_iff] at h
  obtain ⟨⟨w, l⟩, ⟨t, ht, ⟨v, t', us⟩, hstep, hl⟩, rfl⟩ := h
  cases hl
  refine ⟨t, t', us, ht, hstep, rfl, rfl, rfl, ?_⟩
  simp only [nextDeeds, ht]

/-- The steps of the other tasks leave the workers, the diaries and the log alone. -/
theorem Sound.aside_of_advance {task : LoopTask} (h : s.Sound config)
    (hmove : s.advance g task = some s') (htask : ∀ p, task ≠ .worker p) :
    workerOf config s'.run.workers = workerOf config s.run.workers ∧
      s'.diary = s.diary ∧ s'.panicked = s.panicked ∧ s'.world.grid = s.world.grid ∧
      s'.world.clock = s.world.clock ∧ s'.world.cancelled = s.world.cancelled := by
  cases turn_of_advance hmove with
  | begun hphase hl =>
    obtain ⟨hrun, _⟩ := h.run_eq hphase
    have hworkers : s.run.workers = #[] := congrArg LoopRun.workers hrun
    rw [hrun, LoopRun.begin_fresh] at hl
    cases hl
    exact ⟨congrArg _ hworkers.symm, rfl, rfl, rfl, rfl, rfl⟩
  | launched _ _ =>
    refine ⟨?_, rfl, rfl, rfl, rfl, rfl⟩
    rw [h.config_eq]
    exact workerOf_push s.run.workers
  | joins | stops | finishes | writes | closes | deserted => exact ⟨rfl, rfl, rfl, rfl, rfl, rfl⟩
  | works => exact absurd rfl (htask _)

/-- The step of a worker stands at the end of its log. -/
theorem logged_worker {p : Nat} {t : Worker} (ht : s.run.workers[p]? = some t) (w : World σ)
    (log : Log σ) :
    s.logged (.worker p) w log = Function.update log p (log p ++ [⟨t, s.world, w⟩]) := by
  simp only [logged, ht]

/-- What holds of the old entries and of the new one holds of the log. -/
theorem forall_mem_update {P : Nat → Entry σ → Prop} {p : Nat} {e₀ : Entry σ}
    (hold : ∀ q, ∀ e ∈ log q, P q e) (hnew : P p e₀) :
    ∀ q, ∀ e ∈ Function.update log p (log p ++ [e₀]) q, P q e := by
  intro q e he
  by_cases hq : q = p
  · subst hq
    rw [Function.update_self, List.mem_append, List.mem_singleton] at he
    rcases he with he | rfl
    · exact hold q e he
    · exact hnew
  · rw [Function.update_of_ne hq] at he
    exact hold q e he

theorem logged_of_ne {task : LoopTask} (htask : ∀ p, task ≠ .worker p) (w : World σ)
    (log : Log σ) : s.logged task w log = log := by
  cases task with
  | worker p => exact absurd rfl (htask p)
  | main | gather => rfl

/-! ## A worker's life in a run -/

end Watched

/-- What a worker did in a run, by its log, and where it is: it went one way from its start, or its
    way ended in a panic in its rounds, and it went another one to give its handle back.  The deeds
    are those before the panic. -/
inductive Partition.Life (g : Grid σ) (p : Partition) :
    Bool → List Deed → List (Entry σ) → Worker → Prop
  | calm {L : List (Entry σ)} {t : Worker} : Worker.Path g (.running p.work) L t →
      Life g p false (deedsOf (actsOf g L)) L t
  | broken {L₁ L₂ : List (Entry σ)} {t₁ t : Worker} {ds₁ ds₂ : List Deed} {h : Handle} {e : Effect}
      {k : e.Reply → Proc (Option String)} {message : String} :
      Worker.Path g (.running p.work) L₁ t₁ → deedsOf (actsOf g L₁) = ds₁ ++ ds₂ →
      Proc.Plays p.enter ds₁ (.done (.ok h)) →
      Proc.Plays (p.rounds h p.config.plan.numRuns.toNat 0 0 0) ds₂ (.op e k) →
      Worker.Path g (.running (p.leave h (some message))) L₂ t →
      Life g p true (deedsOf (actsOf g L₁)) (L₁ ++ L₂) t

namespace Partition

variable {g : Grid σ} {p : Partition} {panicked : Bool} {ds : List Deed} {L : List (Entry σ)}
variable {w w' : World σ} {t t' : Worker} {us : List StatusUpdate}

theorem Life.step (h : p.Life g panicked ds L t) (hstep : t.step? g w = some (w', t', us)) :
    p.Life g panicked (if panicked then ds else ds ++ t.deeds g w) (L ++ [⟨t, w, w'⟩]) t' := by
  cases h with
  | calm hpath =>
    have hdeeds := deedsOf_actsOf_concat g L ⟨t, w, w'⟩
    rw [if_neg (by simp), ← hdeeds]
    exact .calm (hpath.step hstep)
  | broken hpath hdeeds henter hrounds hpath' =>
    rw [if_pos rfl, List.append_assoc]
    exact .broken hpath hdeeds henter hrounds (hpath'.step hstep)

/-- All acts of a life are genuine, before a panic and after it. -/
theorem Life.genuine (h : p.Life g panicked ds L t) : ∀ a ∈ actsOf g L, a.Genuine g := by
  cases h with
  | calm hpath => exact hpath.genuine
  | broken hpath _ _ _ hpath' =>
    intro a ha
    rw [actsOf_append, List.mem_append] at ha
    rcases ha with ha | ha
    · exact hpath.genuine a ha
    · exact hpath'.genuine a ha

/-- Each entry of the log of a life is a step. -/
theorem Life.step_of_mem (h : p.Life g panicked ds L t) {e : Entry σ} (he : e ∈ L) :
    ∃ t₁ us, e.worker.step? g e.before = some (e.after, t₁, us) := by
  cases h with
  | calm hpath => exact hpath.step_of_mem he
  | broken hpath _ _ _ hpath' =>
    rcases List.mem_append.mp he with he | he
    · exact hpath.step_of_mem he
    · exact hpath'.step_of_mem he

/-- Where a worker is by its deeds, as long as it has not panicked. -/
theorem Life.program_eq (h : p.Life g false ds L t) :
    Worker.Path g (.running p.work) L t ∧ ds = deedsOf (actsOf g L) ∧
      Proc.Plays p.work ds t.program := by
  cases h with
  | calm hpath => exact ⟨hpath, rfl, hpath.plays⟩

end Partition

namespace Watched

variable {config : LoopConfig} {g : Grid σ} {S : Outside σ} {s s' : Watched σ}
variable {log log' : Log σ} {w : World σ}

/-- The log of a run tells the life of each of its workers. -/
def Chronicled (config : LoopConfig) (g : Grid σ) (log : Log σ) (s : Watched σ) : Prop :=
  ∀ p, (teamOf config p).Life g (s.panicked p) (s.diary p) (log p)
    (workerOf config s.run.workers p)

/-- In its rounds, a worker has its handle to give back. -/
theorem InRounds.program (h : s.Sound config) {p : Nat} {m : Handle} (hin : s.InRounds p m) :
    ∃ t, s.run.workers[p]? = some t ∧ ∃ e k, t.program = (.op e k >>= (s.partition p).leave m) := by
  obtain ⟨hcalm, ds₁, ds₂, e, k, hdiary, henter, hrounds⟩ := hin
  have hstay : Proc.Plays ((s.partition p).stay (.ok m)) ds₂
      (.op e k >>= (s.partition p).leave m) :=
    hrounds.bind _
  cases ht : s.run.workers[p]? with
  -- A worker that is not launched has done nothing, and so it has no handle.
  | none =>
    rw [(h.unlaunched p ht).1] at hdiary
    obtain ⟨rfl, -⟩ := List.append_eq_nil_iff.mp hdiary.symm
    cases henter
  | some t =>
    obtain ⟨q, hq, hprogram⟩ := (h.engaged p t ht).plays
    refine ⟨t, rfl, e, k, (hprogram hcalm).trans ?_⟩
    rw [Partition.work_eq, hdiary] at hq
    exact hq.unique ((henter.bind _).append hstay)

theorem Chronicled.panic (h : s.Sound config) (hlog : Chronicled config g log s) {p : Nat}
    {m : Handle} (hin : s.InRounds p m) (message : String) :
    Chronicled config g log (s.catchPanic p m message) := by
  obtain ⟨t, ht, -⟩ := hin.program h
  obtain ⟨hcalm, ds₁, ds₂, e, k, hdiary, henter, hrounds⟩ := hin
  have hp : p < s.run.workers.size := (Array.getElem?_eq_some_iff.mp ht).1
  intro q
  show (teamOf config q).Life g (Function.update s.panicked p true q) (s.diary q) (log q)
    (workerOf config (s.run.workers.setIfInBounds p _) q)
  rw [workerOf_setIfInBounds hp]
  by_cases hq : q = p
  · subst hq
    rw [Function.update_self, Function.update_self]
    have hlife := hlog q
    rw [hcalm] at hlife
    obtain ⟨hpath, hdeeds, -⟩ := hlife.program_eq
    have hpartition : s.partition q = teamOf config q := by rw [partition, h.config_eq]
    rw [hpartition] at henter hrounds ⊢
    rw [h.config_eq] at hrounds
    rw [hdeeds] at hdiary ⊢
    -- The way from the panic on is still empty.
    have hlife : (teamOf config q).Life g true (deedsOf (actsOf g (log q))) (log q ++ [])
        (.running ((teamOf config q).leave m (some message))) :=
      .broken hpath hdiary henter hrounds .nil
    rwa [List.append_nil] at hlife
  · rw [Function.update_of_ne hq, Function.update_of_ne hq]
    exact hlog q

theorem Chronicled.move {task : LoopTask} (h : s.Sound config) (hlog : Chronicled config g log s)
    (hmove : s.advance g task = some s') :
    Chronicled config g (s.logged task s'.world log) s' := by
  by_cases htask : ∃ p, task = .worker p
  · obtain ⟨p, rfl⟩ := htask
    obtain ⟨t, t', us, ht, hstep, hworkers, -, hpanicked, hdiary⟩ := step?_of_advance hmove
    have hp : p < s.run.workers.size := (Array.getElem?_eq_some_iff.mp ht).1
    intro q
    rw [logged_worker ht, hworkers, hpanicked, hdiary, workerOf_setIfInBounds hp]
    by_cases hq : q = p
    · subst hq
      have hlife := hlog q
      rw [workerOf_of_getElem? ht] at hlife
      rw [Function.update_self, Function.update_self, note_diary_self]
      exact hlife.step hstep
    · rw [Function.update_of_ne hq, Function.update_of_ne hq, note_diary_other hq]
      exact hlog q
  · have htask : ∀ p, task ≠ .worker p := fun p hp => htask ⟨p, hp⟩
    obtain ⟨hworkers, hdiary, hpanicked, -⟩ := h.aside_of_advance hmove htask
    intro q
    rw [logged_of_ne htask, hworkers, hdiary, hpanicked]
    exact hlog q

/-- A run with a log is a run, and its log tells the lives of its workers. -/
theorem ReachesBy.sound_and_chronicled (h : ReachesBy g S (start config w) log s) :
    s.Sound config ∧ Chronicled config g log s := by
  induction h with
  | refl => exact ⟨sound_start config w, fun p => .calm .nil⟩
  | move _ hmove ih => exact ⟨ih.1.step (.move (S := S) hmove), ih.2.move ih.1 hmove⟩
  | stir _ _ ih => exact ⟨ih.1.stir _, ih.2⟩
  | panic _ hpanics hin ih =>
    refine ⟨?_, ih.2.panic ih.1 hin _⟩
    obtain ⟨t, ht, e, k, hprogram⟩ := hin.program ih.1
    exact ih.1.panics ht (.caught hprogram)

theorem ReachesBy.sound (h : ReachesBy g S (start config w) log s) : s.Sound config :=
  h.sound_and_chronicled.1

theorem ReachesBy.chronicled (h : ReachesBy g S (start config w) log s) :
    Chronicled config g log s :=
  h.sound_and_chronicled.2

/-- A run with a log, without the log. -/
theorem ReachesBy.reaches (h : ReachesBy g S (start config w) log s) :
    Reaches g S (start config w) s := by
  induction h with
  | refl => exact .refl
  | move _ hmove ih => exact ih.tail (.move hmove)
  | stir _ hstir ih => exact ih.tail (.stir hstir)
  | panic hs hpanics hin ih =>
    obtain ⟨t, ht, e, k, hprogram⟩ := hin.program hs.sound
    exact ih.tail (.panic hpanics ht (.caught hprogram))

/-- A run comes to a state in which it has finished, with a log of how it got there. -/
theorem exists_finished_by (g : Grid σ) (S : Outside σ) (config : LoopConfig) (w : World σ) :
    ∃ log s, ReachesBy g S (start config w) log s ∧ s.run.phase = .finished := by
  obtain ⟨s, hs, hphase, _⟩ := (sound_start config w).inevitable_finished.exists_reaches
  obtain ⟨log, hlog⟩ := exists_log_of_moves hs
  exact ⟨log, s, hlog, hphase⟩

end Watched

end GridBench
