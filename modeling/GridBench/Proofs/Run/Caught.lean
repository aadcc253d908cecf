/-
  GridBench.Proofs.Run.Caught

  Runs in which workers panic come to their end as well, be it only in their
  rounds, where a panic is caught (`Fares`), or anywhere (`Endures`).  A panic
  takes a worker nearer to its end, and whatever else can happen can happen
  without it.
-/
import GridBench.Proofs.Run.Log

namespace GridBench

namespace Watched

variable {σ : Type} {config : LoopConfig} {g : Grid σ} {S : Outside σ} {s s' : Watched σ}

/-- A step of a task or a panic that is caught, after whatever happens outside before it. -/
inductive Fares (g : Grid σ) (S : Outside σ) (s : Watched σ) : Watched σ → Prop
  | moves {s' : Watched σ} : Moves g S s s' → Fares g S s s'
  | caught {w : World σ} {p : Nat} {h : Handle} {message : String} :
      Relation.ReflTransGen S.stirs s.world w → S.panics → s.InRounds p h →
      Fares g S s (({ s with world := w } : Watched σ).catchPanic p h message)

/-- No task undoes a panic or notes one. -/
theorem panicked_of_advance {task : LoopTask} (h : s.advance g task = some s') :
    s'.panicked = s.panicked := by
  cases turn_of_advance h with
  | begun | launched | joins | stops | finishes | works | writes | closes | deserted => rfl

/-- If no panics come from outside, there are none. -/
theorem ReachesBy.panicked_eq {log : Log σ} (hpanics : ¬ S.panics) (hs : ReachesBy g S s log s') :
    s'.panicked = s.panicked := by
  induction hs with
  | refl => rfl
  | move _ hmove ih => exact (panicked_of_advance hmove).trans ih
  | stir _ _ ih => exact ih
  | panic _ hpanic => exact absurd hpanic hpanics

/-- A step of a task or any panic of a worker, caught or not, after whatever happens outside before
    it. -/
inductive Endures (g : Grid σ) (S : Outside σ) (s : Watched σ) : Watched σ → Prop
  | moves {s' : Watched σ} : Moves g S s s' → Endures g S s s'
  | panics {w : World σ} {p : Nat} {message : String} {t t' : Worker} :
      Relation.ReflTransGen S.stirs s.world w → S.panics → s.run.workers[p]? = some t →
      (s.partition p).Unwinds message t t' →
      Endures g S s { s with
        world := w
        run := { s.run with workers := s.run.workers.setIfInBounds p t' }
        panicked := Function.update s.panicked p true }

theorem Fares.endures (h : s.Sound config) (hfares : Fares g S s s') : Endures g S s s' := by
  cases hfares with
  | moves hmoves => exact .moves hmoves
  | caught hstirs hpanics hin =>
    obtain ⟨t, ht, e, k, hprogram⟩ := hin.program h
    exact .panics hstirs hpanics ht (.caught hprogram)

theorem Endures.reaches (h : Endures g S s s') : Reaches g S s s' := by
  cases h with
  | moves hmoves => exact hmoves.reaches
  | panics hstirs hpanics ht hunwinds => exact (reaches_stir hstirs).tail (.panic hpanics ht hunwinds)

theorem Endures.less (h : s.Sound config) (hstep : Endures g S s s') :
    Less s.numMaps (s'.remaining s.numMaps) (s.remaining s.numMaps) := by
  cases hstep with
  | moves hmoves =>
    obtain ⟨w, task, _, hmove⟩ := hmoves
    exact (h.stir w).less_of_turn (turn_of_advance hmove)
  | panics _ _ ht hunwinds => exact h.less_of_panic ht hunwinds rfl rfl

/-- Every run finishes, whichever workers panic. -/
theorem Sound.inevitable_finished_of_endures (h : s.Sound config) :
    Inevitable (Endures g S) (fun s => s.run.phase = .finished) s := by
  refine Inevitable.of_wellFounded (less_wf config.plan.numMaps.toNat)
    (remaining config.plan.numMaps.toNat) h (fun s s' h hstep => ?_) fun s h => ?_
  · exact ⟨h.reaches hstep.reaches, h.numMaps_eq ▸ hstep.less h⟩
  · exact h.exists_moves.imp_right fun ⟨s', hs'⟩ => ⟨s', .moves hs'⟩

/-- Every run finishes, whichever workers panic in their rounds. -/
theorem Sound.inevitable_finished_of_fares (h : s.Sound config) :
    Inevitable (Fares g S) (fun s => s.run.phase = .finished) s := by
  refine Inevitable.of_wellFounded (less_wf config.plan.numMaps.toNat)
    (remaining config.plan.numMaps.toNat) h (fun s s' h hfares => ?_) fun s h => ?_
  · have hstep := hfares.endures h
    exact ⟨h.reaches hstep.reaches, h.numMaps_eq ▸ hstep.less h⟩
  · exact h.exists_moves.imp_right fun ⟨s', hs'⟩ => ⟨s', .moves hs'⟩

end Watched

end GridBench
