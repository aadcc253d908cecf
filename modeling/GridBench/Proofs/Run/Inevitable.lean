/-
  GridBench.Proofs.Run.Inevitable

  What a system of tasks comes to, whichever of them moves next.  A property is
  inevitable from a state if it holds there, or if some task can move and the
  property is inevitable after every move.  A worker comes closer to its end
  with each move (`Worker.Move.nearer`): it goes down its program, which is a
  tree of finite depth, or it goes on within one effect.  A panic takes it
  closer as well (`Worker.nearer_of_unwinds`): either it ends at once, or it is
  left with giving its handle back, where no panic is caught again.
-/
import Mathlib.Data.DFinsupp.WellFounded
import Mathlib.Logic.Relation
import GridBench.Proofs.Run.Sound

namespace GridBench

/-- Every sequence of moves from the state comes to a state with the property `P`. -/
inductive Inevitable {α : Type} (Moves : α → α → Prop) (P : α → Prop) : α → Prop
  | here {s : α} : P s → Inevitable Moves P s
  | later {s : α} : (∃ s', Moves s s') → (∀ s', Moves s s' → Inevitable Moves P s') →
      Inevitable Moves P s

namespace Inevitable

variable {α : Type} {Moves : α → α → Prop} {P Q I : α → Prop} {s : α}

theorem mono (h : Inevitable Moves P s) (hPQ : ∀ s, P s → Q s) : Inevitable Moves Q s := by
  induction h with
  | here hP => exact .here (hPQ _ hP)
  | later hmove _ ih => exact .later hmove ih

/-- What all moves preserve holds of the state that is come to. -/
theorem and_invariant (h : Inevitable Moves P s) (hI : I s)
    (hstep : ∀ s s', I s → Moves s s' → I s') : Inevitable Moves (fun s => P s ∧ I s) s := by
  induction h with
  | here hP => exact .here ⟨hP, hI⟩
  | later hmove _ ih => exact .later hmove fun s' hs' => ih s' hs' (hstep _ _ hI hs')

theorem exists_reaches (h : Inevitable Moves P s) :
    ∃ s', Relation.ReflTransGen Moves s s' ∧ P s' := by
  induction h with
  | here hP => exact ⟨_, .refl, hP⟩
  | later hmove _ ih =>
    obtain ⟨s', hs'⟩ := hmove
    obtain ⟨s'', hreach, hP⟩ := ih s' hs'
    exact ⟨s'', .head hs' hreach, hP⟩

/-- A property is inevitable if every move goes down a well-founded order and some task can move
    as long as the property does not hold. -/
theorem of_wellFounded {β : Type} {r : β → β → Prop} (hwf : WellFounded r) (rank : α → β)
    (hI : I s) (hstep : ∀ s s', I s → Moves s s' → I s' ∧ r (rank s') (rank s))
    (hmove : ∀ s, I s → P s ∨ ∃ s', Moves s s') : Inevitable Moves P s := by
  -- The induction is on the rank, so it is named before the state is let go.
  obtain ⟨b, hb⟩ : ∃ b, rank s = b := ⟨_, rfl⟩
  induction b using hwf.induction generalizing s with
  | _ b ih =>
    rcases hmove s hI with hP | hmoves
    · exact .here hP
    · refine .later hmoves fun s' hs' => ?_
      obtain ⟨hI', hr⟩ := hstep s s' hI hs'
      exact ih (rank s') (hb ▸ hr) hI' rfl

end Inevitable

/-- One component of a family of states goes down its order, and the others stay. -/
theorem lex_of_component {n : Nat} {β : Type} {r : β → β → Prop} {x y : Fin n → β} (i : Fin n)
    (hi : r (x i) (y i)) (hothers : ∀ j, j ≠ i → x j = y j) :
    Pi.Lex (· < ·) (fun {_} => r) x y :=
  ⟨i, fun j hj => hothers j (ne_of_lt hj), hi⟩

theorem lex_wf {n : Nat} {β : Type} {r : β → β → Prop} (hwf : WellFounded r) :
    WellFounded (Pi.Lex (ι := Fin n) (· < ·) (fun {_} => r)) :=
  Pi.Lex.wellFounded _ fun _ => hwf

namespace Proc

/-- What may be left of a worker's program: after its next effect, or after a panic that is caught,
    when it gives its handle back. -/
inductive Below : Proc (Option String) → Proc (Option String) → Prop
  | reply {e : Effect} {k : e.Reply → Proc (Option String)} (r : e.Reply) : Below (k r) (.op e k)
  | caught {p : Partition} {h : Handle} {q : Proc (Option String)} {e : Effect}
      {k : e.Reply → Proc (Option String)} (crash : Option String) :
      q = (.op e k >>= p.leave h) → Below (p.leave h crash) q

theorem acc_done (a : Option String) : Acc Below (done a) := by
  refine ⟨_, fun q hq => ?_⟩
  cases hq with
  | caught crash heq => cases heq

theorem leave_eq (p : Partition) (h : Handle) (crash : Option String) :
    p.leave h crash = .op (.ask (.release h) none) fun
      | .ok () => .done crash
      | .error f => GridBench.say .warn
          ("failed to release map handle" ++ p.members [("error", f.message)]) >>= fun _ =>
            .done crash := by
  refine congrArg (op (.ask (.release h) none)) (funext fun a => ?_)
  match a with
  | .ok () | .error f => rfl

/-- Giving the handle back takes an effect at least. -/
theorem bind_leave_ne_done {p : Partition} {h : Handle} {q : Proc (Option String)}
    {crash : Option String} (heq : .done crash = (q >>= p.leave h)) : False := by
  cases q with
  | done a => cases heq
  | op e k => cases heq

/-- No panic is caught while the handle is given back. -/
theorem acc_leave (p : Partition) (h : Handle) (crash : Option String) :
    Acc Below (p.leave h crash) := by
  have hlog : ∀ r, Acc Below (.op (.log r) fun _ => .done crash) := fun r => by
    refine ⟨_, fun q hq => ?_⟩
    cases hq with
    | reply => exact acc_done crash
    | caught _ heq =>
      obtain ⟨rfl, hk⟩ := Proc.op.inj heq
      exact (bind_leave_ne_done (congrFun (eq_of_heq hk) ())).elim
  rw [leave_eq]
  refine ⟨_, fun q hq => ?_⟩
  cases hq with
  | reply a =>
    match a with
    | .ok () => exact acc_done crash
    | .error f => exact hlog _
  | caught _ heq =>
    obtain ⟨rfl, hk⟩ := Proc.op.inj heq
    exact (bind_leave_ne_done (congrFun (eq_of_heq hk) (.ok ()))).elim

/-- Effects and panics that are caught take a program down a well-founded order. -/
theorem below_wf : WellFounded Below := by
  refine ⟨fun p => ?_⟩
  induction p with
  | done a => exact acc_done a
  | op e k ih =>
    refine ⟨_, fun q hq => ?_⟩
    cases hq with
    | reply r => exact ih r
    | caught crash _ => exact acc_leave _ _ crash

theorem Plays.child {p q : Proc (Option String)} {d : Deed} (h : Plays p [d] q) : Below q p := by
  cases h with
  | @cons _ _ r _ _ h =>
    have hq := h.unique (.nil _)
    exact hq ▸ .reply r

end Proc

namespace Worker

variable {σ : Type} {g : Grid σ} {w w' : World σ} {t t' : Worker}

/-- Whether there is anything left for a worker to do. -/
def toil (t : Worker) : Nat := if t.hasEnded then 0 else 1

/-- How far a worker is within the effect it is at, or behind the effect it had. -/
def effort : Worker → Nat
  | .pausing .. => 2
  | .running _ => 1
  | .waiting .. => 0

/-- Whether a worker is nearer to its end than another one. -/
def Nearer (t' t : Worker) : Prop :=
  Prod.Lex (· < ·) (Prod.Lex Proc.Below (· < ·)) (t'.toil, t'.program, t'.effort)
    (t.toil, t.program, t.effort)

theorem nearer_wf : WellFounded Nearer :=
  InvImage.wf (fun t : Worker => (t.toil, t.program, t.effort))
    (Nat.lt_wfRel.wf.prod_lex (Proc.below_wf.prod_lex Nat.lt_wfRel.wf))

/-- A worker that has not ended is nearer to its end once it has, or if what is left of it is
    less. -/
theorem nearer_of_lex (hended : t.hasEnded = false)
    (hlex : Prod.Lex Proc.Below (· < ·) (t'.program, t'.effort) (t.program, t.effort)) :
    t'.Nearer t := by
  cases hended' : t'.hasEnded with
  | true => exact Prod.Lex.left _ _ (by simp [toil, hended, hended'])
  | false =>
    have htoil : t'.toil = t.toil := by rw [toil, toil, hended, hended']
    rw [Nearer, htoil]
    exact Prod.Lex.right _ hlex

/-- Every move takes a worker nearer to its end. -/
theorem Move.nearer {ds : List Deed} (h : Move g w t w' t' ds) : t'.Nearer t := by
  refine nearer_of_lex h.not_hasEnded ?_
  have hplays := h.plays
  cases h with
  -- Sending a request and waking up leave the program as it is; all other moves go down in it.
  | sent _ => exact Prod.Lex.right _ (show 0 < 1 by omega)
  | woken _ => exact Prod.Lex.right _ (show 1 < 2 by omega)
  | refused | paused | clocked | picked | logged | published | abandoned | late | answered =>
    exact Prod.Lex.left _ _ hplays.child

/-- So does every panic. -/
theorem nearer_of_unwinds {p : Partition} {message : String} (h : p.Unwinds message t t') :
    t'.Nearer t := by
  have hended := h.not_hasEnded
  cases h with
  | caught hprogram => exact nearer_of_lex hended (Prod.Lex.left _ _ (.caught _ hprogram))
  | ended =>
    refine Prod.Lex.left _ _ ?_
    rw [toil, toil, hended]
    exact Nat.zero_lt_one

/-- A worker that has not ended can move when its time has come. -/
theorem isSome_step? (h : t.hasEnded = false) (hw : t.wakeTime?.getD 0 ≤ w.clock) :
    (t.step? g w).isSome = true := by
  match t with
  | .running (.done _) => cases h
  | .running (.op e k) =>
    match e with
    | .ask .. | .pause _ | .clock | .pick _ | .log _ | .publish _ => rfl
  | .pausing wakeAt p =>
    have hwake : wakeAt ≤ w.clock := hw
    rw [step?, if_pos hwake]
    rfl
  | .waiting r f k =>
    have hwake : f.wakeTime ≤ w.clock := hw
    -- A cancelled request is given up before its time.
    rw [step?, Option.isSome_map, Flight.answer?]
    by_cases hc : (w.cancelled && r.isCancellable) = true
    · rw [if_pos hc]
      rfl
    · rw [if_neg hc, if_pos hwake]
      rfl

/-- So it can once it has waited long enough. -/
theorem exists_step? (h : t.hasEnded = false) :
    ∃ moment, ∀ w : World σ, moment ≤ w.clock → (t.step? g w).isSome = true :=
  ⟨_, fun _ hw => isSome_step? h hw⟩

end Worker

end GridBench
