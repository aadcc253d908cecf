/-
  GridBench.Proofs.Run.Prompt

  Workers that make each of their steps as soon as they can (`Worker.Prompt`).  Where
  only acquiring a map takes the grid any time (`Grid.Immediate`), time passes for such
  a worker while it waits for its map and while it pauses, and not otherwise: whatever
  it does, it does it when the time it has waited and paused so far is over
  (`Worker.Timed`).

  In a run in which time passes only while nobody can move (`Watched.Tick`) all
  workers are of that kind, and the run is at the moment at which one of them made its
  last step, or one of them has not ended (`Watched.OnTime`).
-/
import GridBench.Proofs.Run.Drift
import GridBench.Proofs.Run.Pace

namespace GridBench

variable {σ : Type}

/-- Only acquiring a map takes the grid any time. -/
def Grid.Immediate (g : Grid σ) : Prop :=
  ∀ s r, (∀ m, r ≠ .acquire m) → (g.start s r).1 = 0

theorem Flight.wakeTime_le_due (f : Flight) : f.wakeTime ≤ f.due := by
  unfold wakeTime
  split
  · exact Nat.le_refl _
  · exact Nat.min_le_left _ _

theorem MemoryStore.grid_immediate : grid.Immediate := by
  intro s r hr
  match r with
  | .acquire m => exact absurd rfl (hr m)
  | .call .. | .release _ => rfl

/-! ## Time in a log -/

/-- The moment of the last step in a log that begins at a given moment. -/
def momentOf (start : Nat) (L : List (Entry σ)) : Nat :=
  (L.getLast?.map fun e => e.before.clock).getD start

theorem momentOf_snoc (start : Nat) (L : List (Entry σ)) (e : Entry σ) :
    momentOf start (L ++ [e]) = e.before.clock := by
  rw [momentOf, List.getLast?_concat]
  rfl

/-- How long a worker has waited for a map when it makes a step. -/
def Entry.acquireMs (e : Entry σ) : Nat :=
  match e.worker with
  | .waiting (.acquire _) f _ => e.before.clock - f.sentAt
  | _ => 0

/-- How long a worker waited for maps, all together. -/
def acquireMs (as : List (Act σ)) : Nat := (as.map fun a => a.entry.acquireMs).sum

theorem acquireMs_append (as bs : List (Act σ)) :
    acquireMs (as ++ bs) = acquireMs as + acquireMs bs := by
  rw [acquireMs, List.map_append, List.sum_append]
  rfl

/-- Without an answer to a request for a map, no time was waited for one. -/
theorem acquireMs_eq_zero {g : Grid σ} {as : List (Act σ)} (has : ∀ a ∈ as, a.Genuine g)
    (hnone : Partition.acquisitions (deedsOf as) = []) : acquireMs as = 0 := by
  refine List.sum_eq_zero fun n hn => ?_
  obtain ⟨a, ha, rfl⟩ := List.mem_map.mp hn
  cases has a ha with
  | refused _ _ | other _ _ _ => rfl
  | @answered r f k x w w' hx =>
    match r with
    | .call .. | .release _ => rfl
    | .acquire m =>
      have hmem : x ∈ Partition.acquisitions (deedsOf as) :=
        List.mem_filterMap.mpr ⟨_, List.mem_map_of_mem ha, rfl⟩
      rw [hnone] at hmem
      cases hmem

/-- What holds of each act of a list with those before it holds of them when the deeds of one more
    step are added. -/
theorem forall_split_acts {P : List (Act σ) → Act σ → Prop} {as : List (Act σ)} {ds : List Deed}
    {e : Entry σ} (hds : ds.length ≤ 1) (hold : ∀ bs a cs, as = bs ++ a :: cs → P bs a)
    (hnew : ∀ d, ds = [d] → P as ⟨d, e⟩) :
    ∀ bs a cs, as ++ ds.map (fun d => ⟨d, e⟩) = bs ++ a :: cs → P bs a := by
  intro bs a cs hsplit
  rcases Nat.le_one_iff_eq_zero_or_eq_one.mp hds with hds | hds
  · rw [List.length_eq_zero_iff.mp hds, List.map_nil, List.append_nil] at hsplit
    exact hold bs a cs hsplit
  · obtain ⟨d, rfl⟩ := List.length_eq_one_iff.mp hds
    rcases List.eq_nil_or_concat cs with rfl | ⟨cs, c, rfl⟩
    -- The act split off is the new one, or one of the old ones.
    · obtain ⟨rfl, ha⟩ := List.append_inj' hsplit rfl
      obtain rfl := List.head_eq_of_cons_eq ha
      exact hnew d rfl
    · have hregroup : bs ++ a :: cs.concat c = (bs ++ a :: cs) ++ [c] := by simp
      rw [hregroup] at hsplit
      exact hold bs a cs (List.append_inj' hsplit rfl).1

namespace Worker

variable {g : Grid σ} {w w' : World σ} {t t' : Worker} {ds : List Deed} {since : Nat}

/-- The moment at which a worker goes on that made its last step at a given moment, if it need not
    wait for anybody. -/
def dueAt (since : Nat) : Worker → Nat
  | .pausing wakeAt _ => wakeAt
  | .running _ | .waiting .. => since

/-- A worker that made its last step at the given moment does not look back: it pauses from then
    on, and what it waits for it asked for then.  Only for a map is there anything to wait. -/
def InTime (since : Nat) : Worker → Prop
  | .running _ => True
  | .pausing wakeAt _ => since ≤ wakeAt
  | .waiting r f _ => f.sentAt = since ∧ ((∀ m, r ≠ .acquire m) → f.due = since)

/-- A worker whose step comes as soon as it can makes it when it is due, and has waited for its map
    before if it had to. -/
theorem moment_of_step? {us : List StatusUpdate} (h : t.step? g w = some (w', t', us))
    (ht : t.InTime since) (hle : since ≤ w.clock)
    (hprompt : w.clock ≤ max since (t.wakeTime?.getD 0)) :
    w.clock = t.dueAt since + (⟨t, w, w'⟩ : Entry σ).acquireMs := by
  match t with
  | .running _ =>
    have hnow : w.clock ≤ since := by simpa [wakeTime?] using hprompt
    exact Nat.le_antisymm hnow hle
  | .pausing wakeAt _ =>
    have hwake : wakeAt ≤ w.clock := by
      by_contra hlate
      rw [step?, if_neg hlate] at h
      cases h
    have hnow : w.clock ≤ wakeAt := Nat.le_trans hprompt (Nat.max_le.mpr ⟨ht, Nat.le_refl _⟩)
    exact Nat.le_antisymm hnow hwake
  | .waiting (.acquire m) f k =>
    have hsent : f.sentAt = since := ht.1
    show w.clock = since + (w.clock - f.sentAt)
    omega
  -- Whatever else it waits for was there at once.
  | .waiting (.call ..) f _ | .waiting (.release _) f _ =>
    have hdue : f.due = since := ht.2 fun m hm => by cases hm
    have hwake : f.wakeTime ≤ since := hdue ▸ f.wakeTime_le_due
    have hnow : w.clock ≤ since := Nat.le_trans hprompt (Nat.max_le.mpr ⟨Nat.le_refl _, hwake⟩)
    exact Nat.le_antisymm hnow hle

/-- Behind a step a worker is due when the pause it may have begun is over. -/
theorem Move.dueAt_eq (h : t.Move g w w' t' ds) : t'.dueAt w.clock = w.clock + pausedMs ds := by
  cases h <;> rfl

theorem Move.inTime (hg : g.Immediate) (h : t.Move g w w' t' ds) : t'.InTime w.clock := by
  cases h with
  | @sent r _ _ _ => exact ⟨rfl, fun hr => congrArg (w.clock + ·) (hg w.grid r hr)⟩
  | paused => exact Nat.le_add_right _ _
  | refused | clocked | picked | logged | published | woken | abandoned | late | answered =>
    exact trivial

/-- A step has waited for a map only if it answers a request. -/
theorem Move.acquireMs_eq (h : t.Move g w w' t' ds) :
    acquireMs (ds.map fun d => ⟨d, ⟨t, w, w'⟩⟩) = (⟨t, w, w'⟩ : Entry σ).acquireMs := by
  cases h <;> rfl

/-! ## The times of one worker -/

/-- The times of a worker by its log: it is due when the time it has waited for its map and paused
    is over, and at such moments it did all that it did. -/
structure Timed (g : Grid σ) (start : Nat) (L : List (Entry σ)) (t : Worker) : Prop where
  inTime : t.InTime (momentOf start L)
  due : t.dueAt (momentOf start L) =
    start + acquireMs (actsOf g L) + pausedMs (deedsOf (actsOf g L))
  moments : ∀ as a bs, actsOf g L = as ++ a :: bs →
    a.entry.before.clock = start + acquireMs (as ++ [a]) + pausedMs (deedsOf as)

/-- A worker in a world whose clock is not past the moment at which it can make its next step. -/
structure Prompt (g : Grid σ) (start clock : Nat) (L : List (Entry σ)) (t : Worker) : Prop where
  timed : t.Timed g start L
  last_le : momentOf start L ≤ clock
  prompt : t.hasEnded = false → clock ≤ max (momentOf start L) (t.wakeTime?.getD 0)

theorem prompt_start (g : Grid σ) (start : Nat) (q : Proc (Option String)) :
    (Worker.running q).Prompt g start start [] where
  timed := ⟨trivial, rfl, fun as a bs h => by simp [actsOf] at h⟩
  last_le := Nat.le_refl _
  prompt _ := Nat.le_max_left _ _

/-- What one step preserves. -/
theorem Prompt.step {start : Nat} {L : List (Entry σ)} {us : List StatusUpdate}
    (hg : g.Immediate) (h : t.Prompt g start w.clock L) (hstep : t.step? g w = some (w', t', us)) :
    t'.Prompt g start w'.clock (L ++ [⟨t, w, w'⟩]) := by
  obtain ⟨hmove, -⟩ := move_of_step? hstep
  have hmoment := moment_of_step? hstep h.timed.inTime h.last_le (h.prompt hmove.not_hasEnded)
  have hdeeds : deedsOf (actsOf g (L ++ [⟨t, w, w'⟩])) = deedsOf (actsOf g L) ++ t.deeds g w :=
    deedsOf_actsOf_concat g L _
  have hacquire : acquireMs (actsOf g (L ++ [⟨t, w, w'⟩])) =
      acquireMs (actsOf g L) + (⟨t, w, w'⟩ : Entry σ).acquireMs := by
    rw [actsOf_append, actsOf_singleton, acquireMs_append, hmove.acquireMs_eq]
  -- Whatever the step completes is due at the moment of the step.
  have hnow : ∀ d, t.deeds g w = [d] → w.clock =
      start + acquireMs (actsOf g L ++ [⟨d, ⟨t, w, w'⟩⟩]) + pausedMs (deedsOf (actsOf g L)) := by
    intro d hd
    have hwaited : acquireMs [(⟨d, ⟨t, w, w'⟩⟩ : Act σ)] = (⟨t, w, w'⟩ : Entry σ).acquireMs := rfl
    have hdue := h.timed.due
    rw [acquireMs_append, hwaited]
    omega
  refine ⟨⟨?_, ?_, fun as a bs has => ?_⟩, ?_, fun _ => ?_⟩
  · rw [momentOf_snoc]
    exact hmove.inTime hg
  · rw [momentOf_snoc, hacquire, hdeeds, pausedMs_append]
    have hbehind := hmove.dueAt_eq
    have hdue := h.timed.due
    show t'.dueAt w.clock = _
    omega
  · rw [actsOf_append, actsOf_singleton] at has
    exact forall_split_acts hmove.length_le h.timed.moments hnow as a bs has
  · rw [momentOf_snoc, hmove.world.2]
  · rw [momentOf_snoc, hmove.world.2]
    exact Nat.le_max_left _ _

end Worker

/-! ## Runs in which time passes only while nobody can move -/

namespace Watched

/-- Whether some task could move at a moment, if nothing happened until then. -/
def CanMove (g : Grid σ) (s : Watched σ) (moment : Nat) : Prop :=
  ∃ task, (({ s with world := s.world.passUntil moment } : Watched σ).advance g task).isSome = true

/-- A step of a task, with what it adds to the logs, or what happens in the world of a run that has
    not finished: time passes while nobody can move, and the run is cancelled at the given moment,
    if at all. -/
inductive Tick (g : Grid σ) (cancelAt : Option Nat) (x : Log σ × Watched σ) :
    Log σ × Watched σ → Prop
  | move {task : LoopTask} {s : Watched σ} : x.2.advance g task = some s →
      Tick g cancelAt x (x.2.logged task s.world x.1, s)
  | drift {w : World σ} : x.2.run.phase ≠ .finished → x.2.world.Drifts (x.2.CanMove g) cancelAt w →
      Tick g cancelAt x (x.1, { x.2 with world := w })

/-- Any number of steps, from the beginning of a run on. -/
abbrev Ticks (g : Grid σ) (cancelAt : Option Nat) (config : LoopConfig) (w : World σ)
    (x : Log σ × Watched σ) : Prop :=
  Relation.ReflTransGen (Tick g cancelAt) (fun _ => [], start config w) x

variable {config : LoopConfig} {g : Grid σ} {cancelAt : Option Nat} {s s' : Watched σ}
variable {log : Log σ} {w : World σ} {x : Log σ × Watched σ}

/-- A run in which time passes only while nobody can move is a run that may be cancelled. -/
theorem Ticks.reachesBy (h : Ticks g cancelAt config w x) :
    ReachesBy g (cancelling σ) (start config w) x.1 x.2 := by
  induction h with
  | refl => exact .refl
  | tail _ htick ih =>
    cases htick with
    | move hmove => exact ih.move hmove
    | drift _ hdrift =>
      refine ih.stir ?_
      cases hdrift with
      | pass => exact .inl ⟨_, rfl⟩
      | cancel => exact .inr rfl

theorem canMove_of_step? {task : LoopTask} {moment : Nat}
    (h : (s.run.step? g (s.world.passUntil moment) task).isSome = true) : s.CanMove g moment := by
  refine ⟨task, ?_⟩
  rw [advance, Option.isSome_map]
  exact h

/-- A worker that has not ended can move when its time has come. -/
theorem canMove_of_worker {p : Nat} {t : Worker} (ht : s.run.workers[p]? = some t)
    (hended : t.hasEnded = false) {moment : Nat} (hmoment : t.wakeTime?.getD 0 ≤ moment) :
    s.CanMove g moment := by
  have hstep : (s.run.step? g (s.world.passUntil moment) (.worker p)).isSome = true := by
    rw [LoopRun.step?, LoopRun.workerStep?, ht, Option.bind_some, Option.isSome_map]
    exact Worker.isSome_step? hended (Nat.le_trans hmoment (Nat.le_max_right _ _))
  exact canMove_of_step? hstep

/-- Only while a run waits for its workers can it be that nobody can move. -/
theorem Sound.joining_of_idle (h : s.Sound config) (hphase : s.run.phase ≠ .finished)
    (hidle : ¬s.CanMove g s.world.clock) : s.run.phase = .joining ∧
      ∃ (p : Nat) (t : Worker), s.run.workers[p]? = some t ∧ t.hasEnded = false := by
  rcases h.ready (g := g) with hfinished | ⟨task, htask⟩ | hwaits
  · exact absurd hfinished hphase
  · rw [← s.world.passUntil_self] at htask
    exact absurd (canMove_of_step? htask) hidle
  · exact hwaits

/-- While a run waits for its workers, all of them are launched. -/
theorem Sound.exists_worker (h : s.Sound config) (hphase : s.run.phase = .joining) {p : Nat}
    (hp : p < config.plan.numMaps.toNat) : ∃ t, s.run.workers[p]? = some t := by
  obtain ⟨-, hlaunched, -⟩ := h.stage.opened_of_phase (.inr hphase)
  have hsize : s.run.workers.size = s.numMaps := by simpa [hphase] using hlaunched
  have hp : p < s.run.workers.size := by rwa [hsize, h.numMaps_eq]
  exact ⟨_, Array.getElem?_eq_getElem hp⟩

/-- How far a run is in time: its workers are prompt, and at least one of them has not ended yet or
    has just made a step, unless the time is that of the beginning. -/
structure OnTime (config : LoopConfig) (g : Grid σ) (start : Nat) (log : Log σ) (s : Watched σ) :
    Prop where
  early : s.run.phase = .bound ∨ s.run.phase = .launching → s.world.clock = start
  prompt : ∀ p < config.plan.numMaps.toNat,
    (workerOf config s.run.workers p).Prompt g start s.world.clock (log p)
  reached : s.world.clock = start ∨ ∃ p < config.plan.numMaps.toNat,
    (workerOf config s.run.workers p).hasEnded = false ∨ s.world.clock ≤ momentOf start (log p)

theorem onTime_start : OnTime config g w.clock (fun _ => []) (start config w) where
  early _ := rfl
  prompt _ _ := Worker.prompt_start g w.clock _
  reached := .inl rfl

/-- The main task does not go back to its beginning. -/
theorem early_of_turn {task : LoopTask} (hturn : Turn g s task s')
    (hearly : s'.run.phase = .bound ∨ s'.run.phase = .launching) :
    s.run.phase = .bound ∨ s.run.phase = .launching := by
  cases hturn with
  | begun hphase _ => exact .inl hphase
  | launched hphase _ => exact .inr hphase
  | joins | stops | finishes => simp at hearly
  | works | writes | closes | deserted => exact hearly

theorem OnTime.move {start : Nat} {task : LoopTask} (hg : g.Immediate) (hs : s.Sound config)
    (h : OnTime config g start log s) (hmove : s.advance g task = some s') :
    OnTime config g start (s.logged task s'.world log) s' := by
  have hclock := (world_of_advance hmove).1
  have hearly (hearly : s'.run.phase = .bound ∨ s'.run.phase = .launching) :
      s'.world.clock = start :=
    hclock.trans (h.early (early_of_turn (turn_of_advance hmove) hearly))
  by_cases htask : ∃ p, task = .worker p
  · obtain ⟨p, rfl⟩ := htask
    obtain ⟨t, t', us, ht, hstep, hworkers, -⟩ := step?_of_advance hmove
    have hsize : p < s.run.workers.size := (Array.getElem?_eq_some_iff.mp ht).1
    have hp : p < config.plan.numMaps.toNat :=
      Nat.lt_of_lt_of_le hsize (hs.numMaps_eq ▸ hs.size_le)
    rw [logged_worker ht]
    refine ⟨hearly, fun q hq => ?_, .inr ⟨p, hp, .inr ?_⟩⟩
    · rw [hworkers, workerOf_setIfInBounds hsize]
      by_cases hqp : q = p
      · rw [hqp, Function.update_self, Function.update_self]
        have hprompt := h.prompt p hp
        rw [workerOf_of_getElem? ht] at hprompt
        exact hprompt.step hg hstep
      · rw [Function.update_of_ne hqp, Function.update_of_ne hqp, hclock]
        exact h.prompt q hq
    -- The step is the last one of its worker.
    · rw [Function.update_self, momentOf_snoc, hclock]
  · have hne : ∀ p, task ≠ .worker p := fun p hp => htask ⟨p, hp⟩
    obtain ⟨hworkers, -⟩ := hs.aside_of_advance hmove hne
    rw [logged_of_ne hne]
    refine ⟨hearly, ?_, ?_⟩
    · rw [hclock, hworkers]
      exact h.prompt
    · rw [hclock, hworkers]
      exact h.reached

/-- While nobody can move, time passes for all workers alike, and for none of them too long. -/
theorem OnTime.drift {start : Nat} (hs : s.Sound config) (h : OnTime config g start log s)
    (hphase : s.run.phase ≠ .finished) (hdrift : s.world.Drifts (s.CanMove g) cancelAt w) :
    OnTime config g start log { s with world := w } := by
  cases hdrift with
  | cancel => exact ⟨h.early, h.prompt, h.reached⟩
  | @pass moment hlt hidle _ =>
    have hclock : (s.world.passUntil moment).clock = moment :=
      World.clock_passUntil (Nat.le_of_lt hlt)
    obtain ⟨hjoining, q, u, hu, huended⟩ :=
      hs.joining_of_idle hphase (hidle _ (Nat.le_refl _) hlt)
    refine ⟨fun hearly => ?_, fun p hp => ?_, .inr ⟨q, ?_, .inl ?_⟩⟩
    · have hearly : s.run.phase = .bound ∨ s.run.phase = .launching := hearly
      simp [hjoining] at hearly
    · obtain ⟨t, ht⟩ := hs.exists_worker hjoining hp
      have hprompt := h.prompt p hp
      show (workerOf config s.run.workers p).Prompt g start (s.world.passUntil moment).clock (log p)
      rw [hclock]
      rw [workerOf_of_getElem? ht] at hprompt ⊢
      refine ⟨hprompt.timed, Nat.le_trans hprompt.last_le (Nat.le_of_lt hlt), fun hended => ?_⟩
      -- Otherwise the worker could move before time has passed.
      by_contra hlate
      have hcan : s.CanMove g (max s.world.clock (t.wakeTime?.getD 0)) :=
        canMove_of_worker ht hended (Nat.le_max_right _ _)
      exact hidle _ (Nat.le_max_left _ _) (by omega) hcan
    · have hq : q < s.run.workers.size := (Array.getElem?_eq_some_iff.mp hu).1
      exact Nat.lt_of_lt_of_le hq (hs.numMaps_eq ▸ hs.size_le)
    · show (workerOf config s.run.workers q).hasEnded = false
      rw [workerOf_of_getElem? hu]
      exact huended

/-- What a whole run preserves. -/
theorem Ticks.onTime (hg : g.Immediate) (h : Ticks g cancelAt config w x) :
    OnTime config g w.clock x.1 x.2 := by
  induction h with
  | refl => exact onTime_start
  | tail hticks htick ih =>
    have hs := (Ticks.reachesBy hticks).sound
    cases htick with
    | move hmove => exact ih.move hg hs hmove
    | drift hphase hdrift => exact ih.drift hs hphase hdrift

end Watched

end GridBench
