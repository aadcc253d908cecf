/-
  GridBench.Proofs.Run.Replica

  A worker that sees nothing of anyone else does the same every time.  Its
  draws and the entries its map had at first determine every reply its rounds
  get (`Plays.deterministic`), and the handle it was given shows in nothing but
  its calls (`endsFrom_toward`).  So two diaries of a partition's worker agree
  in the answers to its calls, in the ends of its rounds, in the counts it
  publishes, and in what is left in its map (`alike_of_plays`).
-/
import GridBench.Proofs.Run.Rounds
import GridBench.Proofs.Run.Peace

namespace GridBench

namespace Terms

/-- The terms of a worker that draws from a stream of its own. -/
def drawn : Terms Draws where
  may _ _ := True
  admits t
    | ⟨.pick p, n⟩ => n = (p.take t).1
    | _ => True
  after t
    | ⟨.pick p, _⟩ => (p.take t).2
    | _ => t

/-- Two terms at once. -/
def both {τ υ : Type} (c : Terms τ) (c' : Terms υ) : Terms (τ × υ) where
  may t e := c.may t.1 e ∧ c'.may t.2 e
  admits t d := c.admits t.1 d ∧ c'.admits t.2 d
  after t d := (c.after t.1 d, c'.after t.2 d)

theorem grants_both {τ υ : Type} {c : Terms τ} {c' : Terms υ} {t : τ} {t' : υ} {ds : List Deed}
    (h : c.Grants t ds) (h' : c'.Grants t' ds) : (c.both c').Grants (t, t') ds := by
  induction ds generalizing t t' with
  | nil => trivial
  | cons d ds ih => exact ⟨⟨h.1, h'.1⟩, ih h.2 h'.2⟩

end Terms

/-- A worker takes its numbers from the draws of its world, one after the other. -/
theorem Worker.Move.drawn {σ : Type} {g : Grid σ} {w w' : World σ} {t t' : Worker} {ds : List Deed}
    (h : t.Move g w w' t' ds) :
    Terms.drawn.Grants w.draws ds ∧ w'.draws = Terms.drawn.afterAll w.draws ds := by
  cases h with
  | sent | woken => exact ⟨trivial, rfl⟩
  | picked => exact ⟨⟨rfl, trivial⟩, rfl⟩
  | refused | paused | clocked | logged | published | abandoned | late | answered =>
    exact ⟨⟨trivial, trivial⟩, rfl⟩

/-- Effects whose reply is determined by what a worker sees and draws. -/
def Effect.IsDetermined : Effect → Prop
  | .ask (.acquire _) _ | .clock => False
  | _ => True

namespace Proc

variable {α : Type}

/-- A program that has ended did what its replies made it do, if its terms leave no choice of the
    replies to its effects. -/
theorem Plays.deterministic {τ : Type} {c : Terms τ} {P : Effect → Prop}
    (hunique : ∀ t e (r r' : e.Reply), P e → c.admits t ⟨e, r⟩ → c.admits t ⟨e, r'⟩ → r = r')
    {p : Proc α} {ds ds' : List Deed} {a a' : α} {t : τ} (h : Plays p ds (.done a))
    (h' : Plays p ds' (.done a')) (hP : ∀ d ∈ ds, P d.effect) (hds : c.Grants t ds)
    (hds' : c.Grants t ds') : ds = ds' ∧ a = a' := by
  induction p generalizing ds ds' t with
  | done b =>
    obtain ⟨rfl, hb⟩ := h.done_nil
    obtain ⟨rfl, hb'⟩ := h'.done_nil
    cases hb
    cases hb'
    exact ⟨rfl, rfl⟩
  | op e k ih =>
    cases h with
    | @cons _ _ r ds _ h =>
      cases h' with
      | @cons _ _ r' ds' _ h' =>
        -- The two diaries have the same effect next, and so the same reply.
        have hr : r = r' := hunique t e r r' (hP _ List.mem_cons_self) hds.1 hds'.1
        subst hr
        obtain ⟨rfl, ha⟩ := ih r h h' (fun d hd => hP d (List.mem_cons_of_mem _ hd)) hds.2 hds'.2
        exact ⟨rfl, ha⟩

theorem reply_unique (t : Sight × Draws) (e : Effect) (r r' : e.Reply) (he : e.IsDetermined)
    (h : (Terms.seen.both Terms.drawn).admits t ⟨e, r⟩)
    (h' : (Terms.seen.both Terms.drawn).admits t ⟨e, r'⟩) : r = r' := by
  match e, he with
  | .ask (.call _ _) _, _ | .ask (.release _) _, _ => exact h.1.trans h'.1.symm
  | .pick _, _ => exact h.2.trans h'.2.symm
  | .pause _, _ | .log _, _ | .publish _, _ => rfl

end Proc

/-! ## Handles -/

namespace Deed

variable {t : Sight} {d : Draws}

theorem admits_toward (h : Handle) (b : Deed) (hb : t.Admits b) : t.Admits (b.toward h) := by
  match b with
  | ⟨.ask (.call ..) _, _⟩ | ⟨.ask (.acquire _) _, _⟩ | ⟨.ask (.release _) _, _⟩
  | ⟨.pause _, _⟩ | ⟨.clock, _⟩ | ⟨.pick _, _⟩ | ⟨.log _, _⟩ | ⟨.publish _, _⟩ => exact hb

theorem after_toward (h : Handle) (b : Deed) : t.after (b.toward h) = t.after b := by
  match b with
  | ⟨.ask (.call ..) _, _⟩ | ⟨.ask (.acquire _) _, _⟩ | ⟨.ask (.release _) _, _⟩
  | ⟨.pause _, _⟩ | ⟨.clock, _⟩ | ⟨.pick _, _⟩ | ⟨.log _, _⟩ | ⟨.publish _, _⟩ => rfl

theorem drawn_toward (h : Handle) (b : Deed) :
    Terms.drawn.admits d (b.toward h) = Terms.drawn.admits d b ∧
      Terms.drawn.after d (b.toward h) = Terms.drawn.after d b := by
  match b with
  | ⟨.ask (.call ..) _, _⟩ | ⟨.ask (.acquire _) _, _⟩ | ⟨.ask (.release _) _, _⟩
  | ⟨.pause _, _⟩ | ⟨.clock, _⟩ | ⟨.pick _, _⟩ | ⟨.log _, _⟩ | ⟨.publish _, _⟩ =>
    exact ⟨rfl, rfl⟩

end Deed

namespace Terms

theorem seen_toward (h : Handle) {t : Sight} {ds : List Deed} (hds : seen.Grants t ds) :
    seen.Grants t (ds.map (Deed.toward h)) :=
  grants_map (fun _ => Deed.admits_toward h) (fun _ => Deed.after_toward h) hds

theorem drawn_toward (h : Handle) {d : Draws} {ds : List Deed} (hds : drawn.Grants d ds) :
    drawn.Grants d (ds.map (Deed.toward h)) :=
  grants_map (fun _ b hb => (Deed.drawn_toward h b).1 ▸ hb) (fun _ b => (Deed.drawn_toward h b).2)
    hds

end Terms

/-! ## Deeds without calls and draws -/

namespace Partition

open Proc

variable {p : Partition} {ds : List Deed}

theorem callsOf_aside (h : ∀ d ∈ ds, Aside d.effect) : callsOf ds = [] := by
  refine List.filterMap_eq_nil_iff.mpr fun d hd => ?_
  match d, h d hd with
  | ⟨.ask (.acquire _) _, _⟩, _ | ⟨.ask (.release _) _, _⟩, _ | ⟨.pause _, _⟩, _ | ⟨.clock, _⟩, _
  | ⟨.log _, _⟩, _ => rfl

theorem seen_aside (h : ∀ d ∈ ds, Aside d.effect) (t : Sight) :
    Terms.seen.afterAll t ds = t := by
  refine Terms.afterAll_eq_self (fun d hd t => ?_) t
  match d, h d hd with
  | ⟨.ask (.acquire _) _, _⟩, _ | ⟨.ask (.release _) _, _⟩, _ | ⟨.pause _, _⟩, _ | ⟨.clock, _⟩, _
  | ⟨.log _, _⟩, _ => rfl

theorem drawn_aside (h : ∀ d ∈ ds, Aside d.effect) (t : Draws) :
    Terms.drawn.afterAll t ds = t := by
  refine Terms.afterAll_eq_self (fun d hd t => ?_) t
  match d, h d hd with
  | ⟨.ask (.acquire _) _, _⟩, _ | ⟨.ask (.release _) _, _⟩, _ | ⟨.pause _, _⟩, _ | ⟨.clock, _⟩, _
  | ⟨.log _, _⟩, _ => rfl

theorem Minds.isDetermined {m : Handle} {e : Effect} (h : p.Minds m e) : e.IsDetermined := by
  rcases h with h | ⟨u, rfl, _⟩
  · match e, h with
    | .ask (.call ..) _, _ | .pause _, _ | .pick _, _ | .log _, _ => trivial
  · trivial

/-! ## The whole worker -/

/-- The ends of rounds do not depend on the handle the rounds were worked with. -/
theorem endsFrom_toward {m : Handle} {left run completed failed : Nat} {crash : Option String}
    (h : Plays (p.rounds m left run completed failed) ds (.done crash)) (m' : Handle) :
    p.endsFrom m' left run completed failed (ds.map (Deed.toward m')) =
      p.endsFrom m left run completed failed ds := by
  induction left generalizing run completed failed ds with
  | zero => rfl
  | succ left ih =>
    rw [rounds_succ] at h
    obtain ⟨ds₁, _, e, rfl, h₁, h'⟩ := h.of_bind_done
    obtain ⟨ds₂, ds₃, _, rfl, h₂, h₃⟩ := Plays.of_bind_done h'
    -- The parts of the diary with the other handle are diaries of the same round.
    have h₁' := (iteration_routine run).toward h₁ m'
    have h₂' := (account_routine run completed failed e).toward (h := m) h₂ m'
    rw [List.map_append, List.map_append, endsFrom_succ h₁ h₂, endsFrom_succ h₁' h₂']
    cases e with
    | completed => exact congrArg _ (ih h₃)
    | failed action cause => exact congrArg _ (ih h₃)
    | crashed message => rfl

/-- The diary of a worker that has ended and got its map, in three parts. -/
structure Parts (p : Partition) (ds : List Deed) (m : Handle) (crash : Option String)
    (ds₁ ds₂ ds₃ : List Deed) : Prop where
  eq : ds = ds₁ ++ (ds₂ ++ ds₃)
  enter : Plays p.enter ds₁ (.done (.ok m))
  rounds : Plays (p.rounds m p.config.plan.numRuns.toNat 0 0 0) ds₂ (.done crash)
  enter_aside : ∀ d ∈ ds₁, Aside d.effect
  leave_aside : ∀ d ∈ ds₃, Aside d.effect

/-- With truthful replies, entering ends with a handle to the partition's map. -/
theorem enter_truthful (P : Effect → Prop) (hP : ∀ e, Aside e → P e) (t : Sight) :
    p.enter.Keeps (.truthful P) (fun t' a => t' = t ∧ ∃ n, a = .ok ⟨n, p.mapName⟩) t := by
  refine ⟨hP _ trivial, fun _ _ => ⟨hP _ trivial, fun start _ => ⟨hP _ trivial, fun a ha => ?_⟩⟩⟩
  obtain ⟨n, rfl⟩ := ha
  exact ⟨hP _ trivial, fun _ _ => ⟨hP _ trivial, fun _ _ => ⟨rfl, n, rfl⟩⟩⟩

/-- A worker that has ended and was answered truthfully has worked its rounds. -/
theorem parts_of_plays {crash : Option String} {t : Sight} (h : Plays p.work ds (.done crash))
    (hds : Terms.seen.Grants t ds) : ∃ m ds₁ ds₂ ds₃, p.Parts ds m crash ds₁ ds₂ ds₃ := by
  rw [work_eq] at h
  obtain ⟨ds₁, ds', a, rfl, h₁, h'⟩ := h.of_bind_done
  -- A truthful store gives the worker its map.
  have hds₁ := ((Terms.grants_append _ _ _ _).mp hds).1
  obtain ⟨_, n, rfl⟩ := h₁.result hds₁ (enter_truthful (fun _ => True) (fun _ _ => trivial) t)
  obtain ⟨ds₂, ds₃, crash', rfl, h₂, h₃⟩ := Plays.of_bind_done h'
  have hleave := leave_aside (p := p) ⟨n, p.mapName⟩ crash'
  obtain rfl : crash = crash' := h₃.result (Terms.plain_grants _ _ _) hleave
  exact ⟨_, ds₁, ds₂, ds₃, rfl, h₁, h₂, h₁.forall_effect Partition.enter_aside,
    fun d hd => (h₃.forall_effect hleave d hd).1⟩

section

variable {m : Handle} {crash : Option String} {ds₁ ds₂ ds₃ : List Deed}

theorem Parts.callsOf_eq (h : p.Parts ds m crash ds₁ ds₂ ds₃) : callsOf ds = callsOf ds₂ := by
  rw [h.eq, callsOf_append, callsOf_append, callsOf_aside h.enter_aside,
    callsOf_aside h.leave_aside, List.nil_append, List.append_nil]

theorem Parts.published_eq (h : p.Parts ds m crash ds₁ ds₂ ds₃) : published ds = published ds₂ := by
  rw [h.eq, published_append, published_append,
    published_eq_nil fun d hd => (h.enter_aside d hd).silent,
    published_eq_nil fun d hd => (h.leave_aside d hd).silent, List.nil_append, List.append_nil]

theorem Parts.ends_eq (h : p.Parts ds m crash ds₁ ds₂ ds₃) :
    p.ends ds = p.endsFrom m p.config.plan.numRuns.toNat 0 0 0 ds₂ := by
  rw [h.eq, ends_of_enter h.enter, endsFrom_append h.rounds]

theorem Parts.seen (h : p.Parts ds m crash ds₁ ds₂ ds₃) {t : Sight}
    (hds : Terms.seen.Grants t ds) : Terms.seen.Grants t ds₂ := by
  have hrest := ((Terms.grants_append _ _ _ _).mp (h.eq ▸ hds)).2
  rw [seen_aside h.enter_aside] at hrest
  exact ((Terms.grants_append _ _ _ _).mp hrest).1

theorem Parts.drawn (h : p.Parts ds m crash ds₁ ds₂ ds₃) {t : Draws}
    (hds : Terms.drawn.Grants t ds) : Terms.drawn.Grants t ds₂ := by
  have hrest := ((Terms.grants_append _ _ _ _).mp (h.eq ▸ hds)).2
  rw [drawn_aside h.enter_aside] at hrest
  exact ((Terms.grants_append _ _ _ _).mp hrest).1

end

/-- The entries a worker sees are what its calls made of those at first. -/
theorem entries_sight (e : Entries) (ds : List Deed) :
    (sight e ds).entries = (callsOf ds).foldl (fun e c => (c.1.apply e).2) e := by
  -- Stated for every sight, since the picks change as the diary goes on.
  have hfold : ∀ t : Sight, (Terms.seen.afterAll t ds).entries =
      (callsOf ds).foldl (fun e c => (c.1.apply e).2) t.entries := by
    induction ds with
    | nil => exact fun _ => rfl
    | cons d ds ih =>
      intro t
      match d with
      | ⟨.ask (.call ..) _, _⟩ | ⟨.ask (.acquire _) _, _⟩ | ⟨.ask (.release _) _, _⟩
      | ⟨.pause _, _⟩ | ⟨.clock, _⟩ | ⟨.pick _, _⟩ | ⟨.log _, _⟩ | ⟨.publish _, _⟩ => exact ih _
  exact hfold ⟨e, none⟩

/-- Two diaries of a worker that was answered truthfully both times, on the same entries and with
    the same draws. -/
theorem alike_of_plays {ds' : List Deed} {crash crash' : Option String} {t : Sight} {d : Draws}
    (h : Plays p.work ds (.done crash)) (h' : Plays p.work ds' (.done crash'))
    (hs : Terms.seen.Grants t ds) (hs' : Terms.seen.Grants t ds') (hd : Terms.drawn.Grants d ds)
    (hd' : Terms.drawn.Grants d ds') :
    callsOf ds = callsOf ds' ∧ p.ends ds = p.ends ds' ∧ published ds = published ds' := by
  obtain ⟨m, ds₁, ds₂, ds₃, hparts⟩ := parts_of_plays h hs
  obtain ⟨m', ds₁', ds₂', ds₃', hparts'⟩ := parts_of_plays h' hs'
  -- What the first worker did with its handle, it could have done with that of the second one; then
  -- it would have done what the second one did.
  have hmoved := (rounds_routine _ 0 0 0).toward hparts.rounds m'
  have hminds := hmoved.forall_effect ((rounds_routine _ 0 0 0).keeps_plain m')
  have hsame := (hmoved.deterministic reply_unique hparts'.rounds
    (fun d hd => (hminds d hd).isDetermined)
    (Terms.grants_both (Terms.seen_toward m' (hparts.seen hs))
      (Terms.drawn_toward m' (hparts.drawn hd)))
    (Terms.grants_both (hparts'.seen hs') (hparts'.drawn hd'))).1
  rw [hparts.callsOf_eq, hparts'.callsOf_eq, hparts.ends_eq, hparts'.ends_eq,
    hparts.published_eq, hparts'.published_eq, ← hsame, callsOf_toward, published_toward,
    endsFrom_toward hparts.rounds]
  exact ⟨rfl, rfl, rfl⟩

end Partition

end GridBench
