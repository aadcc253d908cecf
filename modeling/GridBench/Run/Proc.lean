/-
  GridBench.Run.Proc

  Programs as trees.  A program is finished with a result, or it has one
  effect on the world outside and goes on with the reply to it.  What the
  effects do is said elsewhere: the same program is carried out step by step
  among others, or alone from start to end.
-/
import GridBench.Store.Call
import GridBench.Status.Progress
import GridBench.Draws
import GridBench.Journal

namespace GridBench

/-- What a worker does to the world outside. -/
inductive Effect where
  /-- Sends a request to the grid; it fails when it takes longer than the given milliseconds. -/
  | ask (r : Request) (withinMs : Option Nat)
  | pause (ms : Nat)
  /-- Reads the clock. -/
  | clock
  | pick (p : Pick)
  | log (r : Record)
  | publish (u : StatusUpdate)

namespace Effect

/-- The reply to an effect. -/
abbrev Reply : Effect → Type
  | .ask r _ => Except Fault r.Answer
  | .pause _ => Unit
  | .clock => Nat
  | .pick _ => Nat
  | .log _ => Unit
  | .publish _ => Unit

end Effect

/-- A program with a result of type `α`. -/
inductive Proc (α : Type) where
  | done (result : α)
  | op (e : Effect) (next : e.Reply → Proc α)

namespace Proc

variable {α β γ : Type}

instance [Inhabited α] : Inhabited (Proc α) := ⟨.done default⟩

/-- The program that goes on with what `f` makes of the result. -/
def bind : Proc α → (α → Proc β) → Proc β
  | .done a, f => f a
  | .op e k, f => .op e fun r => (k r).bind f

instance : Monad Proc where
  pure := .done
  bind := bind

/-- One effect, whose reply is the result. -/
def lift (e : Effect) : Proc e.Reply := .op e .done

/-! ## Laws -/

@[simp] theorem op_bind (e : Effect) (k : e.Reply → Proc α) (f : α → Proc β) :
    (op e k >>= f) = .op e fun r => k r >>= f := rfl

@[simp] theorem bind_done (p : Proc α) : (p >>= done) = p := by
  induction p with
  | done a => rfl
  | op e k ih =>
    rw [op_bind]
    exact congrArg _ (funext ih)

theorem bind_assoc (p : Proc α) (f : α → Proc β) (g : β → Proc γ) :
    (p >>= f >>= g) = (p >>= fun a => f a >>= g) := by
  induction p with
  | done a => rfl
  | op e k ih =>
    rw [op_bind, op_bind, op_bind]
    exact congrArg _ (funext ih)

end Proc

end GridBench
