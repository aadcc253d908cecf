/-
  GridBench.Proofs.Run.Solo

  Parts of a worker's program, carried out alone.  What they do follows one
  another as the parts do (`Proc.alone_bind`): an action goes on with a result
  (`Attempt.alone_bind_ok`) and ends with a failure (`Attempt.alone_bind_error`).
  On a store in memory a call comes down to that of the store, as long as nothing
  is cancelled (`Attempt.alone_call`).

  What is done on the way is the `Proc.diary` of the program.  An action `Makes`
  certain calls if they are those of its diary, and the calls of its parts
  follow one another as well.
-/
import GridBench.Run.Partition
import GridBench.Run.Alone
import GridBench.Proofs.Run.Diary
import GridBench.Proofs.Store.Memory

namespace GridBench

/-- No time passes until now. -/
theorem World.passUntil_self {σ : Type} (w : World σ) : w.passUntil w.clock = w := by
  rw [World.passUntil, Nat.max_self]

/-- A call releases no handle. -/
theorem MemoryStore.isReleased_call (s : MemoryStore) (h : Handle) (c : MapCall) (h' : Handle) :
    (s.call h c).2.isReleased h' = s.isReleased h' := by
  rw [isReleased, (s.call_handles h c).2]
  rfl

namespace Proc

/-- One program after the other. -/
theorem alone_bind {σ α β : Type} {g : Grid σ} (q : Proc α) (f : α → Proc β) (w : World σ)
    (t : Gatherer) :
    (q >>= f).alone g w t =
      (f (q.alone g w t).1).alone g (q.alone g w t).2.1 (q.alone g w t).2.2 := by
  induction q generalizing w t with
  | done a => rfl
  | op e k ih =>
    rw [op_bind]
    cases e with
    | ask | pause | clock | pick | log | publish => exact ih ..

/-- The deeds of a program that is carried out alone. -/
def diary {σ α : Type} (g : Grid σ) : Proc α → World σ → Gatherer → List Deed
  | .done _, _, _ => []
  | .op e k, w, t =>
    let (r, w, t) := (lift e).alone g w t
    ⟨e, r⟩ :: diary g (k r) w t

variable {σ α β : Type} {g : Grid σ}

theorem diary_bind (q : Proc α) (f : α → Proc β) (w : World σ) (t : Gatherer) :
    (q >>= f).diary g w t = q.diary g w t ++
      (f (q.alone g w t).1).diary g (q.alone g w t).2.1 (q.alone g w t).2.2 := by
  induction q generalizing w t with
  | done a => rfl
  | op e k ih =>
    have halone : (op e k).alone g w t = (lift e >>= k).alone g w t := rfl
    rw [op_bind, halone, alone_bind]
    exact congrArg (List.cons _) (ih ..)

end Proc

namespace Attempt

variable {σ α β : Type} {g : Grid σ} {a : Attempt α} {w w' : World σ} {t t' : Gatherer}

theorem alone_bind_ok (f : α → Attempt β) {x : α} (h : a.run.alone g w t = (.ok x, w', t')) :
    (a >>= f).run.alone g w t = (f x).run.alone g w' t' := by
  rw [ExceptT.run_bind, Proc.alone_bind, h]

theorem alone_bind_error (f : α → Attempt β) {x : Trouble}
    (h : a.run.alone g w t = (.error x, w', t')) :
    (a >>= f).run.alone g w t = (.error x, w', t') := by
  rw [ExceptT.run_bind, Proc.alone_bind, h]
  rfl

theorem alone_ofExcept (x : Except Fault α) :
    (ofExcept x).run.alone g w t = (x.mapError .failed, w, t) := by
  cases x <;> rfl

theorem alone_keyOf (p : Partition) (e : Element) :
    (p.keyOf e).run.alone g w t = ((p.key e).mapError .crashed, w, t) := by
  rw [Partition.keyOf]
  cases p.key e <;> rfl

/-- A call on a store in memory takes no time. -/
theorem alone_ask {w : World MemoryStore} (hrun : w.cancelled = false) (h : Handle) (c : MapCall) :
    (Proc.lift (.ask (.call h c) none)).alone MemoryStore.grid w t =
      ((w.grid.call h c).1, { w with grid := (w.grid.call h c).2 }, t) := by
  have hexchange : (Request.call h c).exchange MemoryStore.grid w none =
      ((w.grid.call h c).1, { w with grid := (w.grid.call h c).2 }) := by
    have hgo : ¬ (w.cancelled && (Request.call h c).isCancellable) = true := by
      rw [hrun]
      exact Bool.false_ne_true
    rw [Request.exchange, if_neg hgo]
    show Flight.land MemoryStore.grid (w.passUntil w.clock) _ ⟨0, w.clock, w.clock, none⟩ = _
    rw [World.passUntil_self, Flight.land, if_neg (Nat.lt_irrefl _)]
    rfl
  show (((Request.call h c).exchange MemoryStore.grid w none).1,
    ((Request.call h c).exchange MemoryStore.grid w none).2, t) = _
  rw [hexchange]

theorem alone_call {w : World MemoryStore} (hrun : w.cancelled = false) (h : Handle) (c : MapCall) :
    (call h c).run.alone MemoryStore.grid w t =
      ((w.grid.call h c).1.mapError .failed, { w with grid := (w.grid.call h c).2 }, t) := by
  show (Proc.lift (.ask (.call h c) none) >>= _).alone MemoryStore.grid w t = _
  rw [Proc.alone_bind, alone_ask hrun]
  cases (w.grid.call h c).1 <;> rfl

/-! ## The calls made -/

/-- Carried out alone, an action publishes nothing.  It makes the calls `xs`, which are answered as
    they say, ends with `r` and leads from `w` to `w'`. -/
structure Makes (g : Grid σ) (a : Attempt α) (w : World σ) (t : Gatherer)
    (xs : List ((c : MapCall) × Except Fault c.Answer)) (r : Except Trouble α) (w' : World σ) :
    Prop where
  alone : a.run.alone g w t = (r, w', t)
  calls : callsOf (a.run.diary g w t) = xs

variable {xs ys : List ((c : MapCall) × Except Fault c.Answer)} {w'' : World σ} {x : α}

theorem Makes.bind_ok {f : α → Attempt β} {r : Except Trouble β} (h : Makes g a w t xs (.ok x) w')
    (h' : Makes g (f x) w' t ys r w'') : Makes g (a >>= f) w t (xs ++ ys) r w'' := by
  refine ⟨(alone_bind_ok f h.alone).trans h'.alone, ?_⟩
  rw [ExceptT.run_bind, Proc.diary_bind, callsOf_append, h.calls, h.alone]
  exact congrArg (xs ++ ·) h'.calls

theorem Makes.bind_error {f : α → Attempt β} {x : Trouble} (h : Makes g a w t xs (.error x) w') :
    Makes g (a >>= f) w t xs (.error x) w' := by
  refine ⟨alone_bind_error f h.alone, ?_⟩
  rw [ExceptT.run_bind, Proc.diary_bind, callsOf_append, h.calls, h.alone]
  exact List.append_nil xs

theorem makes_keyOf (p : Partition) (e : Element) :
    Makes g (p.keyOf e) w t [] ((p.key e).mapError .crashed) w := by
  refine ⟨alone_keyOf p e, ?_⟩
  rw [Partition.keyOf]
  cases p.key e <;> rfl

/-- A call on a store in memory is made once. -/
theorem makes_call {w : World MemoryStore} (hrun : w.cancelled = false) (h : Handle) (c : MapCall) :
    Makes MemoryStore.grid (call h c) w t [⟨c, (w.grid.call h c).1⟩]
      ((w.grid.call h c).1.mapError .failed) { w with grid := (w.grid.call h c).2 } := by
  have hask : (Proc.lift (.ask (.call h c) none)).diary MemoryStore.grid w t =
      [⟨.ask (.call h c) none, (w.grid.call h c).1⟩] := by
    show [(⟨_, ((Proc.lift (.ask (.call h c) none)).alone MemoryStore.grid w t).1⟩ : Deed)] = _
    rw [alone_ask hrun]
  refine ⟨alone_call hrun h c, ?_⟩
  show callsOf ((Proc.lift (.ask (.call h c) none) >>= _).diary MemoryStore.grid w t) = _
  rw [Proc.diary_bind, alone_ask hrun, hask]
  cases (w.grid.call h c).1 <;> rfl

end Attempt

end GridBench
