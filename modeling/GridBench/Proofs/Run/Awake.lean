/-
  GridBench.Proofs.Run.Awake

  Workers that wait no longer than they mean to.  A worker whose wait is limited
  gives up when the limit comes before the answer; but if it looks only once the
  answer is there as well, it takes the answer.  Such a worker has overslept,
  and which of the two happens depends on when it is its turn.  Main statement:
  no worker needs to oversleep, since a run in which one of them does not comes
  to its end as well (`inevitable_awake`).
-/
import GridBench.Proofs.Run.Log

namespace GridBench

namespace Flight

/-- A wait is over before the answer comes exactly if the request takes longer than the limit. -/
theorem wakeTime_lt_due_iff (ticket sentAt delay : Nat) (withinMs : Option Nat) :
    (⟨ticket, sentAt, sentAt + delay, withinMs⟩ : Flight).wakeTime < sentAt + delay ↔
      withinMs.any (· < delay) = true := by
  cases withinMs with
  | none => simp [wakeTime]
  | some ms =>
    simp only [wakeTime, Option.any_some, decide_eq_true_eq]
    omega

end Flight

/-- Whether a worker is past the end of its wait, and its answer is there as well. -/
def Worker.Overslept (clock : Nat) : Worker → Prop
  | .waiting _ f _ => f.wakeTime < f.due ∧ f.due ≤ clock
  | _ => False

namespace Worker

variable {σ : Type} {g : Grid σ} {w w' : World σ} {t t' : Worker}

/-- A worker that has just moved has not overslept. -/
theorem Move.awake {ds : List Deed} (h : t.Move g w w' t' ds) : ¬ t'.Overslept w'.clock := by
  cases h with
  | sent =>
    -- Whatever is there at once takes no time, and so not longer than the limit.
    rintro ⟨hlimit, hdue⟩
    obtain ⟨ms, -, hms⟩ := (Option.any_eq_true _ _).mp ((Flight.wakeTime_lt_due_iff ..).mp hlimit)
    have hms := of_decide_eq_true hms
    have hdue : w.clock + (g.start w.grid _).1 ≤ w.clock := hdue
    omega
  | refused | paused | clocked | picked | logged | published | woken | abandoned | late
  | answered => exact fun h => h

/-- A worker can move before it oversleeps, or it cannot oversleep at all. -/
theorem awake_cases (h : ¬ t.Overslept w.clock) :
    (∃ moment, ¬ t.Overslept (w.passUntil moment).clock ∧
      (t.step? g (w.passUntil moment)).isSome = true) ∨ ∀ clock, ¬ t.Overslept clock := by
  match t with
  | .running _ | .pausing .. => exact .inr fun _ h => h
  | .waiting r f k =>
    by_cases hlimit : f.wakeTime < f.due
    · have hclock : w.clock < f.due := Nat.lt_of_not_le fun hdue => h ⟨hlimit, hdue⟩
      refine .inl ⟨f.wakeTime, fun hover => ?_, ?_⟩
      · exact absurd hover.2 (Nat.not_le.mpr (Nat.max_lt.mpr ⟨hclock, hlimit⟩))
      · have hwake : f.wakeTime ≤ (w.passUntil f.wakeTime).clock := Nat.le_max_right _ _
        rw [step?, Option.isSome_map, Flight.answer?, if_pos hwake]
        split <;> rfl
    · exact .inr fun _ hover => hlimit hover.1

end Worker

namespace Watched

variable {σ : Type} {config : LoopConfig} {g : Grid σ} {S : Outside σ} {s s' : Watched σ} {p : Nat}

/-- Whether the worker of a partition has not overslept. -/
def Awake (p : Nat) (s : Watched σ) : Prop :=
  ¬ (workerOf s.run.config s.run.workers p).Overslept s.world.clock

/-- Any number of steps, before each of which the worker of a partition has not overslept. -/
abbrev ReachesAwake (g : Grid σ) (S : Outside σ) (p : Nat) : Watched σ → Watched σ → Prop :=
  Relation.ReflTransGen fun s s' => s.Awake p ∧ Step g S s s'

theorem ReachesAwake.reaches (h : ReachesAwake g S p s s') : Reaches g S s s' := by
  induction h with
  | refl => exact .refl
  | tail _ hstep ih => exact ih.tail hstep.2

/-- Nobody oversleeps by the step of a task. -/
theorem Awake.advance {task : LoopTask} (h : s.Awake p) (hsound : s.Sound config)
    (hmove : s.advance g task = some s') : s'.Awake p := by
  have hsound' : s'.Sound config := hsound.step (.move (S := .still σ) hmove)
  rw [Awake, hsound.config_eq] at h
  rw [Awake, hsound'.config_eq]
  by_cases htask : ∃ q, task = .worker q
  · obtain ⟨q, rfl⟩ := htask
    obtain ⟨t, t', us, ht, hstep, hworkers, -⟩ := step?_of_advance hmove
    have hmove' := (Worker.move_of_step? hstep).1
    have hq : q < s.run.workers.size := (Array.getElem?_eq_some_iff.mp ht).1
    rw [hworkers, workerOf_setIfInBounds hq]
    by_cases hpq : p = q
    · rw [hpq, Function.update_self]
      exact hmove'.awake
    · rw [Function.update_of_ne hpq, hmove'.world.2]
      exact h
  · obtain ⟨hworkers, -, -, -, hclock, -⟩ :=
      hsound.aside_of_advance hmove fun q hq => htask ⟨q, hq⟩
    rw [hworkers, hclock]
    exact h

/-- A step of a task, at a time at which the worker of a partition has not overslept. -/
def MovesAwake (g : Grid σ) (p : Nat) (s s' : Watched σ) : Prop :=
  ∃ moment task, ({ s with world := s.world.passUntil moment } : Watched σ).Awake p ∧
    ({ s with world := s.world.passUntil moment } : Watched σ).advance g task = some s'

/-- What holds of a run at any time if the worker of a partition does not oversleep. -/
structure Wakeful (config : LoopConfig) (p : Nat) (s : Watched σ) : Prop where
  sound : s.Sound config
  awake : s.Awake p

theorem Wakeful.moves (h : Wakeful config p s) (hmove : MovesAwake g p s s') :
    Wakeful config p s' := by
  obtain ⟨moment, task, hawake, hmove⟩ := hmove
  have hsound := h.sound.stir (s.world.passUntil moment)
  exact ⟨hsound.step (.move (S := .still σ) hmove), hawake.advance hsound hmove⟩

theorem Wakeful.reaches (h : Wakeful config p s)
    (hmoves : Relation.ReflTransGen (MovesAwake g p) s s') :
    ReachesAwake g S p s s' ∧ Wakeful config p s' := by
  induction hmoves with
  | refl => exact ⟨.refl, h⟩
  | tail _ hmove ih =>
    obtain ⟨hreach, hlast⟩ := ih
    have hnext := hlast.moves hmove
    obtain ⟨moment, task, hawake, hmove⟩ := hmove
    exact ⟨(hreach.tail ⟨hlast.awake, .stir (S.passes _ moment)⟩).tail ⟨hawake, .move hmove⟩,
      hnext⟩

/-- As long as the run has not finished, one of its tasks can move before the worker oversleeps. -/
theorem Wakeful.exists_moves (h : Wakeful config p s) :
    s.run.phase = .finished ∨ ∃ s', MovesAwake g p s s' := by
  -- A worker that does not oversleep at any time lets the others move when they can.
  have hothers (hnever : ∀ clock, ¬ (workerOf s.run.config s.run.workers p).Overslept clock) :
      s.run.phase = .finished ∨ ∃ s', MovesAwake g p s s' := by
    refine (h.sound.exists_moves (g := g) (S := .still σ)).imp_right ?_
    rintro ⟨s', w, task, hw, hmove⟩
    obtain ⟨moment, rfl⟩ := passUntil_of_still hw
    exact ⟨s', moment, task, hnever _, hmove⟩
  have hawake := h.awake
  rw [Awake] at hawake
  cases ht : s.run.workers[p]? with
  | none =>
    refine hothers fun clock => ?_
    rw [workerOf, ht]
    exact fun h => h
  | some t =>
    rw [workerOf_of_getElem? ht] at hawake hothers
    rcases Worker.awake_cases (g := g) hawake with ⟨moment, hlater, hstep⟩ | hnever
    · right
      have hadvance : (({ s with world := s.world.passUntil moment } : Watched σ).advance g
          (.worker p)).isSome = true := by
        rw [advance, LoopRun.step?, LoopRun.workerStep?, ht, Option.isSome_map, Option.bind_some,
          Option.isSome_map]
        exact hstep
      obtain ⟨s', hs'⟩ := Option.isSome_iff_exists.mp hadvance
      refine ⟨s', moment, .worker p, ?_, hs'⟩
      rw [Awake, workerOf_of_getElem? ht]
      exact hlater
    · exact hothers hnever

/-- A run in which the worker of a partition never oversleeps comes to its end. -/
theorem Wakeful.inevitable_finished (h : Wakeful config p s) :
    Inevitable (MovesAwake g p) (fun s => s.run.phase = .finished) s := by
  refine Inevitable.of_wellFounded (less_wf config.plan.numMaps.toNat)
    (remaining config.plan.numMaps.toNat) h (fun s s' h hmove => ?_) fun s h => h.exists_moves
  refine ⟨h.moves hmove, ?_⟩
  obtain ⟨moment, task, -, hmove⟩ := hmove
  have hless := (h.sound.stir (s.world.passUntil moment)).less_of_turn (turn_of_advance hmove)
  rw [← h.sound.numMaps_eq]
  exact hless

end Watched

end GridBench
