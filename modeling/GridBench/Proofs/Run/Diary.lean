/-
  GridBench.Proofs.Run.Diary

  What a program has done so far, as a list of deeds: the effects it had and
  the replies to them.  A program is a tree, so its deeds determine how much
  of it is left (`Plays.unique`).  Two ways to reason about a program without
  opening it again are derived from that:

    * `Proc.Keeps` states what a program may do and what its result is, for
      all replies that its terms admit; `Plays.keeps` carries it along a diary.
    * `Proc.replay` follows a diary through a program, and so finds in a diary
      the result of each part of a program.
-/
import GridBench.Run.Proc

namespace GridBench

/-- An effect that was carried out, with the reply to it. -/
structure Deed where
  effect : Effect
  reply : effect.Reply

namespace Deed

/-- What a deed published. -/
def published : Deed → List StatusUpdate
  | ⟨.publish u, _⟩ => [u]
  | _ => []

/-- What a deed picked from, and the number it picked. -/
def picked? : Deed → Option (Pick × Nat)
  | ⟨.pick p, n⟩ => some (p, n)
  | _ => none

/-- The call a deed made on a map, with the answer to it.  The handle is left out. -/
def call? : Deed → Option ((c : MapCall) × Except Fault c.Answer)
  | ⟨.ask (.call _ c) _, a⟩ => some ⟨c, a⟩
  | _ => none

/-- The answer to a deed that asked for a map. -/
def acquired? : Deed → Option (Except Fault Handle)
  | ⟨.ask (.acquire _) _, a⟩ => some a
  | _ => none

end Deed

/-- Everything that was published, in order. -/
def published (ds : List Deed) : List StatusUpdate := ds.flatMap Deed.published

/-- All calls on maps with their answers, in order. -/
def callsOf (ds : List Deed) : List ((c : MapCall) × Except Fault c.Answer) :=
  ds.filterMap Deed.call?

/-- The last pick, and the number that was picked. -/
def lastPick? (ds : List Deed) : Option (Pick × Nat) := (ds.filterMap Deed.picked?).getLast?

@[simp] theorem published_nil : published [] = [] := rfl

@[simp] theorem published_cons (d : Deed) (ds : List Deed) :
    published (d :: ds) = d.published ++ published ds := List.flatMap_cons

@[simp] theorem published_append (ds es : List Deed) :
    published (ds ++ es) = published ds ++ published es := List.flatMap_append

@[simp] theorem callsOf_append (ds es : List Deed) :
    callsOf (ds ++ es) = callsOf ds ++ callsOf es := List.filterMap_append

namespace Proc

variable {α β : Type}

/-- The program `p` does the deeds `ds`, in this order, and is then left with `q`. -/
inductive Plays : Proc α → List Deed → Proc α → Prop
  | nil (p : Proc α) : Plays p [] p
  | cons {e : Effect} {k : e.Reply → Proc α} {r : e.Reply} {ds : List Deed} {q : Proc α} :
      Plays (k r) ds q → Plays (.op e k) (⟨e, r⟩ :: ds) q

namespace Plays

theorem append {p q r : Proc α} {ds es : List Deed} (h : Plays p ds q) (h' : Plays q es r) :
    Plays p (ds ++ es) r := by
  induction h with
  | nil p => exact h'
  | cons _ ih => exact .cons (ih h')

/-- A sequence does what its first part does, and is left with the rest of it in front. -/
theorem bind {p q : Proc α} {ds : List Deed} (h : Plays p ds q) (f : α → Proc β) :
    Plays (p >>= f) ds (q >>= f) := by
  induction h with
  | nil p => exact .nil _
  | cons _ ih => exact .cons ih

/-- The deeds of a program determine what is left of it. -/
theorem unique {p q q' : Proc α} {ds : List Deed} (h : Plays p ds q) (h' : Plays p ds q') :
    q = q' := by
  induction h with
  | nil p => cases h'; rfl
  | cons _ ih =>
    cases h' with
    | cons h' => exact ih h'

/-- A sequence of two programs is still in the first of them, or it has come to the second. -/
theorem of_bind {p : Proc α} {f : α → Proc β} {ds : List Deed} {q : Proc β}
    (h : Plays (p >>= f) ds q) :
    (∃ e k, Plays p ds (.op e k) ∧ q = (.op e k >>= f)) ∨
      ∃ ds₁ ds₂ a, ds = ds₁ ++ ds₂ ∧ Plays p ds₁ (.done a) ∧ Plays (f a) ds₂ q := by
  -- The induction is on the first program: once it is done, the rest of the diary is the second's.
  induction p generalizing ds with
  | done a => exact .inr ⟨[], ds, a, rfl, .nil _, h⟩
  | op e k ih =>
    rw [op_bind] at h
    cases h with
    | nil => exact .inl ⟨e, k, .nil _, rfl⟩
    | @cons _ _ r ds _ h =>
      rcases ih r h with ⟨e', k', hp, hq⟩ | ⟨ds₁, ds₂, a, rfl, hp, hf⟩
      · exact .inl ⟨e', k', .cons hp, hq⟩
      · exact .inr ⟨⟨e, r⟩ :: ds₁, ds₂, a, rfl, .cons hp, hf⟩

/-- A program that has ended has gone through both parts of a sequence. -/
theorem of_bind_done {p : Proc α} {f : α → Proc β} {ds : List Deed} {b : β}
    (h : Plays (p >>= f) ds (.done b)) :
    ∃ ds₁ ds₂ a, ds = ds₁ ++ ds₂ ∧ Plays p ds₁ (.done a) ∧ Plays (f a) ds₂ (.done b) := by
  rcases of_bind h with ⟨e, k, _, hq⟩ | h
  · cases hq
  · exact h

theorem done_nil {a : α} {ds : List Deed} {q : Proc α} (h : Plays (.done a) ds q) :
    ds = [] ∧ q = .done a := by
  cases h
  exact ⟨rfl, rfl⟩

end Plays

end Proc

/-! ## Terms -/

/-- The terms on which a program deals with the world, relative to a state of type `τ`: what it
    may do, which replies it reckons with, and the state after a deed. -/
structure Terms (τ : Type) where
  may : τ → Effect → Prop
  admits : τ → Deed → Prop
  after : τ → Deed → τ

namespace Terms

variable {τ : Type}

/-- The terms without a state: every effect satisfies `P`, and any reply may come. -/
def plain (P : Effect → Prop) : Terms Unit where
  may _ e := P e
  admits _ _ := True
  after _ _ := ()

/-- Whether every reply in a diary was one to be reckoned with. -/
def Grants (c : Terms τ) : τ → List Deed → Prop
  | _, [] => True
  | t, d :: ds => c.admits t d ∧ c.Grants (c.after t d) ds

/-- The state after a diary. -/
def afterAll (c : Terms τ) (t : τ) (ds : List Deed) : τ := ds.foldl c.after t

@[simp] theorem afterAll_nil (c : Terms τ) (t : τ) : c.afterAll t [] = t := rfl

@[simp] theorem afterAll_cons (c : Terms τ) (t : τ) (d : Deed) (ds : List Deed) :
    c.afterAll t (d :: ds) = c.afterAll (c.after t d) ds := rfl

@[simp] theorem afterAll_append (c : Terms τ) (t : τ) (ds es : List Deed) :
    c.afterAll t (ds ++ es) = c.afterAll (c.afterAll t ds) es := List.foldl_append

theorem grants_append (c : Terms τ) (t : τ) (ds es : List Deed) :
    c.Grants t (ds ++ es) ↔ c.Grants t ds ∧ c.Grants (c.afterAll t ds) es := by
  induction ds generalizing t with
  | nil => simp [Grants]
  | cons d ds ih => simp [Grants, ih, and_assoc]

/-- Deeds that leave the state as it is leave it so all together. -/
theorem afterAll_eq_self {c : Terms τ} {ds : List Deed} (h : ∀ d ∈ ds, ∀ t, c.after t d = t)
    (t : τ) : c.afterAll t ds = t := by
  induction ds with
  | nil => rfl
  | cons d ds ih =>
    rw [afterAll_cons, h d List.mem_cons_self]
    exact ih fun d' hd' => h d' (List.mem_cons_of_mem _ hd')

/-- Deeds may be replaced by others that are to be reckoned with as well and have the same effect
    on the state. -/
theorem grants_map {c : Terms τ} {f : Deed → Deed}
    (hadmits : ∀ t d, c.admits t d → c.admits t (f d))
    (hafter : ∀ t d, c.after t (f d) = c.after t d) {t : τ} {ds : List Deed}
    (hds : c.Grants t ds) : c.Grants t (ds.map f) := by
  induction ds generalizing t with
  | nil => trivial
  | cons d ds ih =>
    refine ⟨hadmits t d hds.1, ?_⟩
    rw [hafter]
    exact ih hds.2

/-- Terms that reckon with every reply grant every diary. -/
theorem grants_of_admits {c : Terms τ} (h : ∀ t d, c.admits t d) (t : τ) (ds : List Deed) :
    c.Grants t ds := by
  induction ds generalizing t with
  | nil => trivial
  | cons d ds ih => exact ⟨h t d, ih _⟩

theorem plain_grants (P : Effect → Prop) (t : Unit) (ds : List Deed) : (plain P).Grants t ds :=
  grants_of_admits (fun _ _ => trivial) t ds

end Terms

namespace Proc

variable {α β τ : Type}

/-- From the state `t` on, the program keeps to its terms, and `Q` holds of the final state and
    the result. -/
def Keeps (c : Terms τ) (Q : τ → α → Prop) : Proc α → τ → Prop
  | .done a, t => Q t a
  | .op e k, t => c.may t e ∧ ∀ r, c.admits t ⟨e, r⟩ → (k r).Keeps c Q (c.after t ⟨e, r⟩)

theorem Keeps.mono {c : Terms τ} {Q R : τ → α → Prop} {p : Proc α} {t : τ} (h : p.Keeps c Q t)
    (hQR : ∀ t a, Q t a → R t a) : p.Keeps c R t := by
  induction p generalizing t with
  | done a => exact hQR t a h
  | op e k ih => exact ⟨h.1, fun r hr => ih r (h.2 r hr)⟩

theorem Keeps.bind {c : Terms τ} {Q : τ → α → Prop} {R : τ → β → Prop} {p : Proc α}
    {f : α → Proc β} {t : τ} (h : p.Keeps c Q t) (hf : ∀ t a, Q t a → (f a).Keeps c R t) :
    (p >>= f).Keeps c R t := by
  induction p generalizing t with
  | done a => exact hf t a h
  | op e k ih => exact ⟨h.1, fun r hr => ih r (h.2 r hr)⟩

/-- A program whose effects are all allowed in every state keeps to its terms. -/
theorem Keeps.of_plain {c : Terms τ} {P : Effect → Prop} {Q : Unit → α → Prop} {p : Proc α}
    (h : p.Keeps (.plain P) Q ()) (hP : ∀ t e, P e → c.may t e) (t : τ) :
    p.Keeps c (fun _ _ => True) t := by
  induction p generalizing t with
  | done a => trivial
  | op e k ih => exact ⟨hP t e h.1, fun r _ => ih r (h.2 r trivial) _⟩

/-- A program on terms that reckon with every reply has only effects that the terms allow. -/
theorem Keeps.to_plain {c : Terms τ} {P : Effect → Prop} {Q : τ → α → Prop}
    {p : Proc α} {t : τ} (h : p.Keeps c Q t) (hadmits : ∀ t d, c.admits t d)
    (hP : ∀ t e, c.may t e → P e) : p.Keeps (.plain P) (fun _ _ => True) () := by
  induction p generalizing t with
  | done a => trivial
  | op e k ih => exact ⟨hP t e h.1, fun r _ => ih r (h.2 r (hadmits t _))⟩

/-- What is left of a program keeps to the terms that the whole program keeps to. -/
theorem Plays.keeps {c : Terms τ} {Q : τ → α → Prop} {p q : Proc α} {ds : List Deed} {t : τ}
    (h : Plays p ds q) (hds : c.Grants t ds) (hp : p.Keeps c Q t) :
    q.Keeps c Q (c.afterAll t ds) := by
  induction h generalizing t with
  | nil p => exact hp
  | cons _ ih => exact ih hds.2 (hp.2 _ hds.1)

/-- A program that has ended has a result as its terms say. -/
theorem Plays.result {c : Terms τ} {Q : τ → α → Prop} {p : Proc α} {ds : List Deed} {a : α} {t : τ}
    (h : Plays p ds (.done a)) (hds : c.Grants t ds) (hp : p.Keeps c Q t) : Q (c.afterAll t ds) a :=
  h.keeps hds hp

/-- Every deed of a program is one that its terms allow. -/
theorem Plays.forall_may {c : Terms τ} {P : Effect → Prop} (hmay : ∀ t e, c.may t e → P e)
    {Q : τ → α → Prop} {p q : Proc α} {ds : List Deed} {t : τ} (h : Plays p ds q)
    (hds : c.Grants t ds) (hp : p.Keeps c Q t) : ∀ d ∈ ds, P d.effect := by
  induction h generalizing t with
  | nil p => exact fun d hd => absurd hd List.not_mem_nil
  | cons _ ih =>
    intro d hd
    rcases List.mem_cons.mp hd with rfl | hd
    · exact hmay _ _ hp.1
    · exact ih hds.2 (hp.2 _ hds.1) d hd

/-- Every deed of a program satisfies what all its effects satisfy. -/
theorem Plays.forall_effect {P : Effect → Prop} {Q : Unit → α → Prop} {p q : Proc α}
    {ds : List Deed} {t : Unit} (h : Plays p ds q) (hp : p.Keeps (.plain P) Q t) :
    ∀ d ∈ ds, P d.effect :=
  h.forall_may (fun _ _ he => he) (Terms.plain_grants P t ds) hp

/-! ## Replaying a diary -/

open Classical in
/-- Follows a diary through a program, as long as the program has the effects of the diary: what is
    left of the program, and of the diary. -/
noncomputable def replay : Proc α → List Deed → Proc α × List Deed
  | .done a, ds => (.done a, ds)
  | .op e k, [] => (.op e k, [])
  | .op e k, d :: ds =>
    -- The reply fits the program only if it is a reply to the effect the program has.
    if h : d.effect = e then replay (k (h ▸ d.reply)) ds else (.op e k, d :: ds)

@[simp] theorem replay_done (a : α) (ds : List Deed) : (done a).replay ds = (.done a, ds) := by
  cases ds <;> rfl

/-- A diary of the program is followed to its end, whatever comes after it. -/
theorem Plays.replay_append {p q : Proc α} {ds : List Deed} (h : Plays p ds q) (es : List Deed) :
    p.replay (ds ++ es) = q.replay es := by
  induction h with
  | nil p => rfl
  | cons _ ih => simpa [replay] using ih

end Proc

end GridBench
