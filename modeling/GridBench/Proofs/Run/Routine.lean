/-
  GridBench.Proofs.Run.Routine

  Programs that work on a map they are given.  Such a program comes as a
  family, one program for each handle.  `Proc.Routine P F` says of a family
  `F` that all effects of `F h` satisfy `P h`, and that the handle shows in
  nothing but the calls made with it.  Hence a program of the family may do
  no more than `P` allows (`Routine.keeps`), and what it did with one handle
  it could have done with any other (`Routine.toward`).
-/
import GridBench.Run.Partition
import GridBench.Proofs.Run.Diary

namespace GridBench

namespace Proc

instance : LawfulMonad Proc :=
  LawfulMonad.mk' Proc (fun p => bind_done p) (fun _ _ => rfl) bind_assoc

end Proc

namespace Effect

/-- Whether an effect is a request to the grid. -/
def isAsk : Effect → Bool
  | .ask .. => true
  | _ => false

end Effect

namespace Deed

/-- The deed with another handle, if it is a call on a map. -/
def toward (h : Handle) : Deed → Deed
  | ⟨.ask (.call _ c) withinMs, a⟩ => ⟨.ask (.call h c) withinMs, a⟩
  | d => d

@[simp] theorem call?_toward (h : Handle) (d : Deed) : (d.toward h).call? = d.call? := by
  match d with
  | ⟨.ask (.call ..) _, _⟩ | ⟨.ask (.acquire _) _, _⟩ | ⟨.ask (.release _) _, _⟩
  | ⟨.pause _, _⟩ | ⟨.clock, _⟩ | ⟨.pick _, _⟩ | ⟨.log _, _⟩ | ⟨.publish _, _⟩ => rfl

@[simp] theorem published_toward (h : Handle) (d : Deed) :
    (d.toward h).published = d.published := by
  match d with
  | ⟨.ask (.call ..) _, _⟩ | ⟨.ask (.acquire _) _, _⟩ | ⟨.ask (.release _) _, _⟩
  | ⟨.pause _, _⟩ | ⟨.clock, _⟩ | ⟨.pick _, _⟩ | ⟨.log _, _⟩ | ⟨.publish _, _⟩ => rfl

theorem toward_of_not_isAsk (h : Handle) {d : Deed} (hd : d.effect.isAsk = false) :
    d.toward h = d := by
  match d with
  | ⟨.ask .., _⟩ => cases hd
  | ⟨.pause _, _⟩ | ⟨.clock, _⟩ | ⟨.pick _, _⟩ | ⟨.log _, _⟩ | ⟨.publish _, _⟩ => rfl

end Deed

theorem callsOf_toward (h : Handle) (ds : List Deed) :
    callsOf (ds.map (Deed.toward h)) = callsOf ds := by
  have hcall : Deed.call? ∘ Deed.toward h = Deed.call? := funext fun d => d.call?_toward h
  rw [callsOf, callsOf, List.filterMap_map, hcall]

theorem published_toward (h : Handle) (ds : List Deed) :
    published (ds.map (Deed.toward h)) = published ds := by
  simp [published, List.flatMap_map]

namespace Proc

variable {α β τ : Type} {P R : Handle → Effect → Prop}

/-- A family of programs, one for each handle.  All effects of the program for a handle satisfy
    `P`, and the handle occurs only as the one that calls are made with. -/
inductive Routine (P : Handle → Effect → Prop) : (Handle → Proc α) → Prop
  | done (a : α) : Routine P fun _ => .done a
  | call (c : MapCall) {k : Handle → Except Fault c.Answer → Proc α} :
      (∀ h, P h (.ask (.call h c) none)) → (∀ a, Routine P fun h => k h a) →
      Routine P fun h => .op (.ask (.call h c) none) (k h)
  | op (e : Effect) {k : Handle → e.Reply → Proc α} : e.isAsk = false → (∀ h, P h e) →
      (∀ r, Routine P fun h => k h r) → Routine P fun h => .op e (k h)

namespace Routine

theorem mono {F : Handle → Proc α} (h : Routine P F) (hPR : ∀ h e, P h e → R h e) :
    Routine R F := by
  induction h with
  | done a => exact .done a
  | call c hP _ ih => exact .call c (fun h => hPR _ _ (hP h)) ih
  | op e he hP _ ih => exact .op e he (fun h => hPR _ _ (hP h)) ih

theorem bind {F : Handle → Proc α} {G : Handle → α → Proc β} (h : Routine P F)
    (hG : ∀ a, Routine P fun h => G h a) : Routine P fun h => F h >>= G h := by
  induction h with
  | done a => exact hG a
  | call c hP _ ih => exact .call c hP ih
  | op e he hP _ ih => exact .op e he hP ih

/-- One effect without a handle. -/
theorem lift (e : Effect) (he : e.isAsk = false) (hP : ∀ h, P h e) :
    Routine P fun _ => Proc.lift e :=
  .op e he hP fun r => .done r

/-! ## Parts that may come to an end early -/

theorem attempt_bind {F : Handle → Attempt α} {G : Handle → α → Attempt β}
    (h : Routine P fun h => (F h).run) (hG : ∀ a, Routine P fun h => (G h a).run) :
    Routine P fun h => (F h >>= G h).run := by
  refine h.bind fun r => ?_
  match r with
  | .ok a => exact hG a
  | .error t => exact .done _

theorem attempt_lift {F : Handle → Proc α} (h : Routine P F) :
    Routine P fun h => (liftM (F h) : Attempt α).run :=
  h.bind fun a => .done (Except.ok a)

/-- One call on the map. -/
theorem attempt_call (c : MapCall) (hP : ∀ h, P h (.ask (.call h c) none)) :
    Routine P fun h => (Attempt.call h c).run := by
  refine .call c hP fun a => ?_
  match a with
  | .ok a => exact .done (Except.ok a)
  | .error f => exact .done (Except.error (Trouble.failed f))

theorem attempt_ofExcept (x : Except Fault α) : Routine P fun _ => (Attempt.ofExcept x).run := by
  match x with
  | .ok a => exact .done (Except.ok a)
  | .error f => exact .done (Except.error (Trouble.failed f))

/-! ## Consequences -/

/-- A program of the family keeps to all terms that allow what `P` allows, as long as its effects
    leave the state of the terms as it is. -/
theorem keeps {F : Handle → Proc α} (hF : Routine P F) {c : Terms τ} {h : Handle} {t : τ}
    (hmay : ∀ e, P h e → c.may t e) (hafter : ∀ e r, P h e → c.after t ⟨e, r⟩ = t) :
    (F h).Keeps c (fun t' _ => t' = t) t := by
  induction hF with
  | done a => rfl
  | call _ hP _ ih | op _ _ hP _ ih =>
    -- The state after the effect is the state before it, so the induction hypothesis fits.
    refine ⟨hmay _ (hP h), fun r _ => ?_⟩
    rw [hafter _ r (hP h)]
    exact ih r

theorem keeps_plain {F : Handle → Proc α} (hF : Routine P F) (h : Handle) :
    (F h).Keeps (.plain (P h)) (fun _ _ => True) () :=
  (hF.keeps (c := .plain (P h)) (fun _ he => he) fun _ _ _ => rfl).mono fun _ _ _ => trivial

/-- What a program of the family did, the program for another handle can do with that handle. -/
theorem toward {F : Handle → Proc α} (hF : Routine P F) {h : Handle} {ds : List Deed} {a : α}
    (hp : Plays (F h) ds (.done a)) (h' : Handle) :
    Plays (F h') (ds.map (Deed.toward h')) (.done a) := by
  induction hF generalizing ds with
  | done b =>
    obtain ⟨rfl, hb⟩ := hp.done_nil
    cases hb
    exact .nil _
  | call c _ _ ih =>
    cases hp with
    | cons hp => exact .cons (ih _ hp)
  | op e he _ _ ih =>
    cases hp with
    | cons hp =>
      -- Not a call, so the deed stands in both diaries as it is.
      rw [List.map_cons, Deed.toward_of_not_isAsk h' he]
      exact .cons (ih _ hp)

end Routine

end Proc

end GridBench
