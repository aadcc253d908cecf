/-
  GridBench.Proofs.Run.Onward

  Runs in which the world only goes onward: whatever happens outside, the clock
  is not turned back and a cancellation is not lifted.  No task does either, so
  the logs of such a run are in the order of time (`ReachesBy.timely`).  Hence
  a worker that pauses does nothing else until its pause is over, however the
  other tasks and the world outside move (`Worker.Path.precedes`).
-/
import GridBench.Proofs.Run.Log

namespace GridBench

variable {σ : Type}

/-- A world that another one may become: the clock goes on, and a cancellation stays. -/
structure World.Onward (w w' : World σ) : Prop where
  clock_le : w.clock ≤ w'.clock
  cancelled : w.cancelled = true → w'.cancelled = true

namespace World.Onward

theorem refl (w : World σ) : w.Onward w := ⟨Nat.le_refl _, fun h => h⟩

theorem trans {w w' w'' : World σ} (h : w.Onward w') (h' : w'.Onward w'') : w.Onward w'' :=
  ⟨Nat.le_trans h.clock_le h'.clock_le, fun hc => h'.cancelled (h.cancelled hc)⟩

/-- Worlds that differ in neither respect. -/
theorem of_eq {w w' : World σ} (hclock : w'.clock = w.clock)
    (hcancelled : w'.cancelled = w.cancelled) : w.Onward w' := by
  refine ⟨Nat.le_of_eq hclock.symm, fun hc => ?_⟩
  rw [hcancelled]
  exact hc

end World.Onward

/-- What happens outside takes the world onward. -/
def Outside.Onward (S : Outside σ) : Prop := ∀ w w', S.stirs w w' → w.Onward w'

/-! ## The order of a log -/

namespace Watched

variable {g : Grid σ} {S : Outside σ} {s s' : Watched σ} {log : Log σ}

/-- No task turns the clock or lifts a cancellation. -/
theorem world_of_advance {task : LoopTask} (h : s.advance g task = some s') :
    s'.world.clock = s.world.clock ∧ s'.world.cancelled = s.world.cancelled := by
  cases turn_of_advance h with
  | works _ hmove => exact hmove.world.symm
  | begun | launched | joins | stops | finishes | writes | closes | deserted => exact ⟨rfl, rfl⟩

theorem onward_of_advance {task : LoopTask} (h : s.advance g task = some s') :
    s.world.Onward s'.world :=
  .of_eq (world_of_advance h).1 (world_of_advance h).2

/-- The logs of a run from one state to another are in the order of time, and between the times of
    the two. -/
structure Timely (s : Watched σ) (log : Log σ) (s' : Watched σ) : Prop where
  onward : s.world.Onward s'.world
  ordered : ∀ p, (log p).Pairwise fun e e' => e.before.Onward e'.before
  after : ∀ p, ∀ e ∈ log p, s.world.Onward e.before
  before : ∀ p, ∀ e ∈ log p, e.before.Onward s'.world

/-- Later worlds leave the order of a log as it is. -/
theorem Timely.later {s₁ : Watched σ} (h : Timely s log s') (honward : s'.world.Onward s₁.world) :
    Timely s log s₁ where
  onward := h.onward.trans honward
  ordered := h.ordered
  after := h.after
  before p e he := (h.before p e he).trans honward

/-- The step of a task is behind all steps in the logs. -/
theorem Timely.move {task : LoopTask} {s₁ : Watched σ} (h : Timely s log s₁)
    (hmove : s₁.advance g task = some s') : Timely s (s₁.logged task s'.world log) s' := by
  have hlater := h.later (onward_of_advance hmove)
  by_cases htask : ∃ p, task = .worker p
  · obtain ⟨p, rfl⟩ := htask
    obtain ⟨t, _, _, ht, -⟩ := step?_of_advance hmove
    rw [logged_worker ht]
    refine ⟨hlater.onward, fun q => ?_, forall_mem_update h.after h.onward,
      forall_mem_update hlater.before (onward_of_advance hmove)⟩
    by_cases hq : q = p
    · rw [hq, Function.update_self, List.pairwise_append]
      refine ⟨h.ordered p, List.pairwise_singleton _ _, fun e he e' he' => ?_⟩
      rw [List.mem_singleton.mp he']
      exact h.before p e he
    · rw [Function.update_of_ne hq]
      exact h.ordered q
  · rw [logged_of_ne fun p hp => htask ⟨p, hp⟩]
    exact hlater

/-- A run whose world goes onward has its logs in the order of time. -/
theorem ReachesBy.timely (hS : S.Onward) (h : ReachesBy g S s log s') : Timely s log s' := by
  induction h with
  | refl =>
    exact ⟨.refl _, fun _ => .nil, fun _ _ he => absurd he List.not_mem_nil,
      fun _ _ he => absurd he List.not_mem_nil⟩
  | move _ hmove ih => exact ih.move hmove
  | stir _ hstir ih => exact ih.later (hS _ _ hstir)
  | panic _ _ _ ih => exact ih.later (.of_eq rfl rfl)

end Watched

/-! ## Pauses -/

/-- An act comes before another one: the world goes onward between them, and if it began a pause,
    the pause is over. -/
structure Act.Precedes (a b : Act σ) : Prop where
  onward : a.entry.before.Onward b.entry.before
  pause_le : ∀ ms, a.deed = ⟨.pause ms, ()⟩ → a.entry.before.clock + ms ≤ b.entry.before.clock

namespace Worker

variable {g : Grid σ} {w w' : World σ} {t t' : Worker}

namespace Path

/-- A pause that a worker has begun is over, or the worker is still in it. -/
theorem pausing_or_over {L : List (Entry σ)} (h : Path g t L t') :
    ∀ a ∈ actsOf g L, ∀ ms, a.deed = ⟨.pause ms, ()⟩ →
      (∃ q, t' = .pausing (a.entry.before.clock + ms) q) ∨
        ∃ e ∈ L, a.entry.before.clock + ms ≤ e.before.clock := by
  induction h with
  | nil => exact fun a ha => absurd ha List.not_mem_nil
  | @step L t₁ t₂ w w' us _ hstep ih =>
    intro a ha ms hpause
    rw [actsOf_append, List.mem_append] at ha
    rcases ha with ha | ha
    · refine .inr ?_
      rcases ih a ha ms hpause with ⟨q, rfl⟩ | ⟨e, he, hle⟩
      -- The worker can only have woken up, so its time has come.
      · have hwake : a.entry.before.clock + ms ≤ w.clock := by
          by_contra hlate
          rw [step?, if_neg hlate] at hstep
          cases hstep
        exact ⟨_, List.mem_append_right _ List.mem_cons_self, hwake⟩
      · exact ⟨e, List.mem_append_left _ he, hle⟩
    · rw [actsOf_singleton, List.mem_map] at ha
      obtain ⟨d, hd, rfl⟩ := ha
      obtain ⟨hmove, -⟩ := move_of_step? hstep
      generalize t₁.deeds g w = ds at hmove hd
      simp only at hpause
      subst hpause
      cases hmove with
      | paused =>
        cases List.mem_singleton.mp hd
        exact .inl ⟨_, rfl⟩
      | sent | woken => cases hd
      | refused | clocked | picked | logged | published | abandoned | late | answered =>
        cases List.mem_singleton.mp hd

/-- The acts of a worker come one after the other, and each pause is taken in full. -/
theorem precedes {L : List (Entry σ)} (h : Path g t L t')
    (hL : L.Pairwise fun e e' => e.before.Onward e'.before) :
    (actsOf g L).Pairwise Act.Precedes := by
  induction h with
  | nil => exact .nil
  | @step L t₁ t₂ w w' us hpath hstep ih =>
    obtain ⟨hold, -, hbehind⟩ := List.pairwise_append.mp hL
    have hw : ∀ e ∈ L, e.before.Onward w := fun e he => hbehind e he _ List.mem_cons_self
    rw [actsOf_append, List.pairwise_append]
    refine ⟨ih hold, ?_, fun a ha b hb => ?_⟩
    -- A step completes one deed at most.
    · have hlength := (move_of_step? hstep).1.length_le
      rw [actsOf_singleton]
      match t₁.deeds g w, hlength with
      | [], _ => exact .nil
      | [d], _ => exact List.pairwise_singleton _ _
    · rw [actsOf_singleton, List.mem_map] at hb
      obtain ⟨d, hd, rfl⟩ := hb
      refine ⟨hw _ (entry_mem_of_mem_actsOf ha), fun ms hpause => ?_⟩
      rcases hpath.pausing_or_over a ha ms hpause with ⟨q, rfl⟩ | ⟨e, he, hle⟩
      -- Waking up completes no deed.
      · cases hd
      · exact Nat.le_trans hle (hw e he).clock_le

end Path

end Worker

end GridBench
