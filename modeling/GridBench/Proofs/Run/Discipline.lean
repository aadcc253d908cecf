/-
  GridBench.Proofs.Run.Discipline

  The calls of a round, whatever the map answers.  For each action there is
  the set of all sequences of calls and answers that go through its elements
  (`Ingesting`, `Reading`, `Removing`); a `Course` is one of each, for a whole
  round.  An action `Follows` such a set if its calls make up one of the
  sequences, or break off behind the first answer that is a failure
  (`Tracks`).  Main statement: `round_tracks`.
-/
import GridBench.Proofs.Run.Laps
import GridBench.Proofs.Run.Round

namespace GridBench

/-- A call on a map with the answer to it. -/
abbrev MadeCall := (c : MapCall) × Except Fault c.Answer

/-- A number that was picked is one that some draw stands for. -/
def Deed.IsDrawn : Deed → Prop
  | ⟨.pick p, n⟩ => ∃ d, n = (p.take d).1
  | _ => True

theorem callsOf_eq_nil {ds : List Deed} (h : ∀ d ∈ ds, d.effect.isAsk = false) :
    callsOf ds = [] := by
  refine List.filterMap_eq_nil_iff.mpr fun d hd => ?_
  match d, h d hd with
  | ⟨.pause _, _⟩, _ | ⟨.clock, _⟩, _ | ⟨.pick _, _⟩, _ | ⟨.log _, _⟩, _
  | ⟨.publish _, _⟩, _ => rfl

namespace Partition

open Proc

variable (p : Partition)

/-- What a worker makes of an answer: nothing, or the failure that ends the round. -/
def verdict : MadeCall → Except Fault Unit
  | ⟨.get key, a⟩ =>
    match a with
    | .ok none => .error (.missingValue key)
    | .ok (some v) => p.config.check v
    | .error f => .error f
  | ⟨_, a⟩ => a.map fun _ => ()

theorem verdict_error (c : MapCall) (f : Fault) : p.verdict ⟨c, .error f⟩ = .error f := by
  cases c <;> rfl

/-! ## Whole sequences -/

/-- Each element is looked for, and written exactly when it is not there. -/
inductive Ingesting : List (String × Json) → List MadeCall → Prop
  | nil : Ingesting [] []
  | present {i : String × Json} {is : List (String × Json)} {xs : List MadeCall} :
      Ingesting is xs → Ingesting (i :: is) (⟨.containsKey (p.place i), .ok true⟩ :: xs)
  | absent {i : String × Json} {is : List (String × Json)} {xs : List MadeCall}
      (a : Except Fault Unit) : Ingesting is xs →
      Ingesting (i :: is)
        (⟨.containsKey (p.place i), .ok false⟩ :: ⟨.set (p.place i) i.2, a⟩ :: xs)

/-- Each element is read. -/
inductive Reading : List (String × Json) → List MadeCall → Prop
  | nil : Reading [] []
  | cons {i : String × Json} {is : List (String × Json)} {xs : List MadeCall}
      (a : Except Fault (Option Json)) : Reading is xs →
      Reading (i :: is) (⟨.get (p.place i), a⟩ :: xs)

/-- Each element is looked for, and removed exactly when it is there. -/
inductive Removing : List (String × Json) → List MadeCall → Prop
  | nil : Removing [] []
  | absent {i : String × Json} {is : List (String × Json)} {xs : List MadeCall} :
      Removing is xs → Removing (i :: is) (⟨.containsKey (p.place i), .ok false⟩ :: xs)
  | present {i : String × Json} {is : List (String × Json)} {xs : List MadeCall}
      (a : Except Fault (Option Json)) : Removing is xs →
      Removing (i :: is)
        (⟨.containsKey (p.place i), .ok true⟩ :: ⟨.remove (p.place i), a⟩ :: xs)

/-- A sequence in `C` with one in `D` behind it. -/
def Then (C D : List MadeCall → Prop) (xs : List MadeCall) : Prop :=
  ∃ us vs, xs = us ++ vs ∧ C us ∧ D vs

/-- All calls of a round whose removal goes through the first `r` elements. -/
def Course (items : List (String × Json)) (r : Nat) : List MadeCall → Prop :=
  Then (p.Ingesting items) (Then (p.Reading items) (p.Removing (items.take r)))

/-- Calls that make up one of the sequences in `C` and were all answered well, or that break off
    behind the first answer that was not.  In the latter case they are the beginning of one of the
    sequences, but for the last answer. -/
inductive Tracks (C : List MadeCall → Prop) : List MadeCall → Option Fault → Prop
  | whole {xs : List MadeCall} : C xs → (∀ x ∈ xs, p.verdict x = .ok ()) → Tracks C xs none
  | broken {xs rest : List MadeCall} {c : MapCall} {a a' : Except Fault c.Answer} {f : Fault} :
      C (xs ++ ⟨c, a'⟩ :: rest) → (∀ x ∈ xs, p.verdict x = .ok ()) →
      p.verdict ⟨c, a⟩ = .error f → Tracks C (xs ++ [⟨c, a⟩]) (some f)

/-- Whatever the calls of an action are answered, they keep to the sequences in `C`. -/
def Follows {α : Type} (C : List MadeCall → Prop) (F : Attempt α) : Prop :=
  ∀ ds r, Plays F.run ds (.done r) →
    (∃ a, r = .ok a ∧ p.Tracks C (callsOf ds) none) ∨
      ∃ f, r = .error (.failed f) ∧ p.Tracks C (callsOf ds) (some f)

variable {p}

theorem exists_ingesting (is : List (String × Json)) : ∃ xs, p.Ingesting is xs := by
  induction is with
  | nil => exact ⟨[], .nil⟩
  | cons i is ih =>
    obtain ⟨xs, hxs⟩ := ih
    exact ⟨_, .present hxs⟩

theorem exists_reading (is : List (String × Json)) : ∃ xs, p.Reading is xs := by
  induction is with
  | nil => exact ⟨[], .nil⟩
  | cons i is ih =>
    obtain ⟨xs, hxs⟩ := ih
    exact ⟨_, .cons (.ok none) hxs⟩

theorem exists_removing (is : List (String × Json)) : ∃ xs, p.Removing is xs := by
  induction is with
  | nil => exact ⟨[], .nil⟩
  | cons i is ih =>
    obtain ⟨xs, hxs⟩ := ih
    exact ⟨_, .absent hxs⟩

/-! ## No whole sequence goes on to another one -/

theorem Ingesting.append_cancel {is : List (String × Json)} {xs ys us vs : List MadeCall}
    (h : p.Ingesting is xs) (h' : p.Ingesting is ys) (heq : xs ++ us = ys ++ vs) :
    xs = ys ∧ us = vs := by
  induction h generalizing ys with
  | nil =>
    cases h'
    exact ⟨rfl, heq⟩
  | present _ ih =>
    -- The answer tells whether the element is written next.
    cases h' with
    | present h' =>
      obtain ⟨rfl, rfl⟩ := ih h' (List.cons.inj heq).2
      exact ⟨rfl, rfl⟩
    | absent a h' => cases (List.cons.inj heq).1
  | absent a _ ih =>
    cases h' with
    | present h' => cases (List.cons.inj heq).1
    | absent a' h' =>
      obtain ⟨hset, heq⟩ := List.cons.inj (List.cons.inj heq).2
      obtain ⟨rfl, rfl⟩ := ih h' heq
      cases hset
      exact ⟨rfl, rfl⟩

theorem Reading.append_cancel {is : List (String × Json)} {xs ys us vs : List MadeCall}
    (h : p.Reading is xs) (h' : p.Reading is ys) (heq : xs ++ us = ys ++ vs) :
    xs = ys ∧ us = vs := by
  induction h generalizing ys with
  | nil =>
    cases h'
    exact ⟨rfl, heq⟩
  | cons a _ ih =>
    cases h' with
    | cons a' h' =>
      obtain ⟨hget, heq⟩ := List.cons.inj heq
      obtain ⟨rfl, rfl⟩ := ih h' heq
      cases hget
      exact ⟨rfl, rfl⟩

theorem Removing.append_cancel {is : List (String × Json)} {xs ys us vs : List MadeCall}
    (h : p.Removing is xs) (h' : p.Removing is ys) (heq : xs ++ us = ys ++ vs) :
    xs = ys ∧ us = vs := by
  induction h generalizing ys with
  | nil =>
    cases h'
    exact ⟨rfl, heq⟩
  | absent _ ih =>
    cases h' with
    | absent h' =>
      obtain ⟨rfl, rfl⟩ := ih h' (List.cons.inj heq).2
      exact ⟨rfl, rfl⟩
    | present a h' => cases (List.cons.inj heq).1
  | present a _ ih =>
    cases h' with
    | absent h' => cases (List.cons.inj heq).1
    | present a' h' =>
      obtain ⟨hremove, heq⟩ := List.cons.inj (List.cons.inj heq).2
      obtain ⟨rfl, rfl⟩ := ih h' heq
      cases hremove
      exact ⟨rfl, rfl⟩

/-- The calls of a whole round are not the beginning of those of another one. -/
theorem Course.eq_nil {items : List (String × Json)} {r : Nat} {xs ys : List MadeCall}
    (h : p.Course items r xs) (h' : p.Course items r (xs ++ ys)) : ys = [] := by
  obtain ⟨as, _, rfl, has, bs, cs, rfl, hbs, hcs⟩ := h
  obtain ⟨as', _, heq, has', bs', cs', rfl, hbs', hcs'⟩ := h'
  simp only [List.append_assoc] at heq
  obtain ⟨-, hreading⟩ := has.append_cancel has' heq
  obtain ⟨-, hremoving⟩ := hbs.append_cancel hbs' hreading
  have hend : cs ++ ys = cs' ++ [] := hremoving.trans (List.append_nil _).symm
  exact (hcs.append_cancel hcs' hend).2

/-! ## Tracks -/

section

variable {C D : List MadeCall → Prop} {xs ys : List MadeCall} {o : Option Fault} {f : Fault}

theorem Tracks.of_none (h : p.Tracks C xs none) : C xs ∧ ∀ x ∈ xs, p.verdict x = .ok () := by
  cases h with
  | whole hC hxs => exact ⟨hC, hxs⟩

/-- Calls that were answered well, with others behind them. -/
theorem Tracks.append (hxs : ∀ x ∈ xs, p.verdict x = .ok ()) (h : p.Tracks D ys o)
    (hC : ∀ zs, D zs → C (xs ++ zs)) : p.Tracks C (xs ++ ys) o := by
  have hboth : ∀ {zs : List MadeCall}, (∀ x ∈ zs, p.verdict x = .ok ()) →
      ∀ x ∈ xs ++ zs, p.verdict x = .ok () := by
    intro zs hzs x hx
    rcases List.mem_append.mp hx with hx | hx
    · exact hxs x hx
    · exact hzs x hx
  cases h with
  | whole hD hys => exact .whole (hC _ hD) (hboth hys)
  | broken hD hys hbad =>
    have hC' := hC _ hD
    rw [← List.append_assoc] at hC' ⊢
    exact .broken hC' (hboth hys) hbad

/-- Calls that break off do so as well in what may follow them. -/
theorem Tracks.extend (h : p.Tracks D xs (some f)) (hC : ∀ zs, D zs → ∃ us, C (zs ++ us)) :
    p.Tracks C xs (some f) := by
  cases h with
  | broken hD hxs hbad =>
    obtain ⟨us, hus⟩ := hC _ hD
    rw [List.append_assoc, List.cons_append] at hus
    exact .broken hus hxs hbad

theorem Tracks.mono (h : p.Tracks D ys o) (hC : ∀ zs, D zs → C zs) : p.Tracks C ys o := by
  cases h with
  | whole hD hys => exact .whole (hC _ hD) hys
  | broken hD hys hbad => exact .broken (hC _ hD) hys hbad

theorem Follows.mono {α : Type} {F : Attempt α} (h : p.Follows D F) (hC : ∀ zs, D zs → C zs) :
    p.Follows C F := by
  intro ds r hplays
  rcases h ds r hplays with ⟨a, hr, htracks⟩ | ⟨f, hr, htracks⟩
  · exact .inl ⟨a, hr, htracks.mono hC⟩
  · exact .inr ⟨f, hr, htracks.mono hC⟩

/-- Writing to the log is no call. -/
theorem follows_say {α : Type} {severity : Severity} {message : String} {a : α} (hC : C []) :
    p.Follows C (do say severity message; pure a) := by
  intro ds r hplays
  cases hplays with
  | cons hplays =>
    obtain ⟨rfl, hr⟩ := hplays.done_nil
    cases hr
    exact .inl ⟨a, rfl, .whole hC fun x hx => absurd hx List.not_mem_nil⟩

/-- A call, and what follows it if it was answered well. -/
theorem follows_call {β : Type} {h : Handle} {c : MapCall} {G : c.Answer → Attempt β}
    {D : c.Answer → List MadeCall → Prop}
    (hgood : ∀ a, p.verdict ⟨c, .ok a⟩ = .ok () → p.Follows (D a) (G a))
    (hbad : ∀ a f, p.verdict ⟨c, .ok a⟩ = .error f → G a = throw (.failed f))
    (hC : ∀ a zs, D a zs → C (⟨c, .ok a⟩ :: zs)) (hsome : ∃ a zs, C (⟨c, a⟩ :: zs)) :
    p.Follows C (Attempt.call h c >>= G) := by
  intro ds r hplays
  obtain ⟨a', zs, hzs⟩ := hsome
  have hbroken : ∀ (a : Except Fault c.Answer) (f : Fault), p.verdict ⟨c, a⟩ = .error f →
      p.Tracks C [⟨c, a⟩] (some f) := fun a f hf =>
    @Tracks.broken p C [] _ _ _ _ f hzs (fun x hx => absurd hx List.not_mem_nil) hf
  cases hplays with
  | @cons _ _ a ds _ hplays =>
    match a with
    | .error f =>
      obtain ⟨rfl, hr⟩ := Plays.done_nil hplays
      cases hr
      exact .inr ⟨f, rfl, hbroken _ f (p.verdict_error c f)⟩
    | .ok a =>
      have hplays : Plays (G a).run ds (.done r) := hplays
      cases hverdict : p.verdict ⟨c, .ok a⟩ with
      | error f =>
        rw [hbad a f hverdict] at hplays
        obtain ⟨rfl, hr⟩ := Plays.done_nil hplays
        cases hr
        exact .inr ⟨f, rfl, hbroken _ f hverdict⟩
      | ok u =>
        have hx : ∀ x ∈ [(⟨c, .ok a⟩ : MadeCall)], p.verdict x = .ok () := fun x hx =>
          List.mem_singleton.mp hx ▸ hverdict
        rcases hgood a hverdict ds r hplays with ⟨b, rfl, htracks⟩ | ⟨f, rfl, htracks⟩
        · exact .inl ⟨b, rfl, htracks.append hx (hC a)⟩
        · exact .inr ⟨f, rfl, htracks.append hx (hC a)⟩

end

/-! ## The actions -/

variable {items : List (String × Json)}

theorem ingest_follows (h : Handle) (is : List (String × Json)) (n : Nat) :
    p.Follows (p.Ingesting is) (p.ingest h (listed is) n) := by
  induction is generalizing n with
  | nil =>
    simp only [listed, List.map_nil, ingest]
    exact follows_say .nil
  | cons i is ih =>
    obtain ⟨ys, hys⟩ := p.exists_ingesting is
    simp only [listed, List.map_cons, ingest, key_item, pure_bind]
    refine follows_call (D := fun present zs => p.Ingesting (i :: is)
        (⟨.containsKey (p.place i), .ok present⟩ :: zs)) (fun present _ => ?_)
      (fun present f hf => by cases hf) (fun _ _ hzs => hzs) ⟨_, _, .present hys⟩
    cases present with
    | true => exact (ih n).mono fun _ => .present
    | false =>
      simp only [ofExcept_ok, pure_bind]
      exact follows_call (D := fun _ => p.Ingesting is) (fun _ _ => ih (n + 1))
        (fun _ f hf => by cases hf) (fun _ _ hzs => .absent _ hzs) ⟨.ok (), _, .absent _ hys⟩

theorem readAll_follows (h : Handle) (is : List (String × Json)) :
    p.Follows (p.Reading is) (p.readAll h (listed is)) := by
  induction is with
  | nil =>
    simp only [listed, List.map_nil, readAll]
    exact follows_say .nil
  | cons i is ih =>
    obtain ⟨ys, hys⟩ := p.exists_reading is
    simp only [listed, List.map_cons, readAll, key_item, pure_bind]
    refine follows_call (D := fun _ => p.Reading is) (fun answer hgood => ?_)
      (fun answer f hf => ?_) (fun _ _ hzs => .cons _ hzs) ⟨.ok none, _, .cons _ hys⟩
    -- What the worker makes of an answer is its verdict.
    · cases answer with
      | none => cases hgood
      | some v =>
        have hcheck : p.config.check v = .ok () := hgood
        simp only [hcheck, ofExcept_ok, pure_bind]
        exact ih
    · cases answer with
      | none =>
        cases hf
        rfl
      | some v =>
        have hcheck : p.config.check v = .error f := hf
        simp only [hcheck]
        rfl

theorem remove_follows (h : Handle) (is : List (String × Json)) (n : Nat) :
    p.Follows (p.Removing is) (p.remove h (listed is) n) := by
  induction is generalizing n with
  | nil =>
    simp only [listed, List.map_nil, remove]
    exact follows_say .nil
  | cons i is ih =>
    obtain ⟨ys, hys⟩ := p.exists_removing is
    simp only [listed, List.map_cons, remove, key_item, pure_bind]
    refine follows_call (D := fun present zs => p.Removing (i :: is)
        (⟨.containsKey (p.place i), .ok present⟩ :: zs)) (fun present _ => ?_)
      (fun present f hf => by cases hf) (fun _ _ hzs => hzs) ⟨_, _, .absent hys⟩
    cases present with
    | true =>
      exact follows_call (D := fun _ => p.Removing is) (fun _ _ => ih (n + 1))
        (fun _ f hf => by cases hf) (fun _ _ hzs => .present _ hzs) ⟨.ok none, _, .present _ hys⟩
    | false => exact (ih n).mono fun _ => .absent

/-! ## A round -/

/-- How a round goes on: its calls keep to the sequences in `C`, where the removal goes through the
    first `r` elements and `r` is drawn if it comes to that.  The round is completed with a whole
    sequence, or fails where its calls break off. -/
def Goes (p : Partition) (items : List (String × Json)) (C : Nat → List MadeCall → Prop)
    (ds : List Deed) (e : RoundEnd) : Prop :=
  ∃ r, (r = 0 ∨ r < items.length) ∧
    ((e = .completed ∧ p.Tracks (C r) (callsOf ds) none) ∨
      ∃ action f, e = .failed action f ∧ p.Tracks (C r) (callsOf ds) (some f)) ∧
    (e = .completed ∨ (∃ f, e = .failed .remove f) → ⟨.pick (removalCount items.length), r⟩ ∈ ds)

/-- What was done before, with its calls answered well. -/
theorem Goes.append {C D : Nat → List MadeCall → Prop} {ds ds' : List Deed} {e : RoundEnd}
    (hwell : ∀ x ∈ callsOf ds, p.verdict x = .ok ()) (h : p.Goes items D ds' e)
    (hC : ∀ r zs, D r zs → C r (callsOf ds ++ zs)) : p.Goes items C (ds ++ ds') e := by
  obtain ⟨r, hr, hends, hpick⟩ := h
  refine ⟨r, hr, ?_, fun he => List.mem_append_right _ (hpick he)⟩
  rw [callsOf_append]
  rcases hends with ⟨he, htracks⟩ | ⟨action, f, he, htracks⟩
  · exact .inl ⟨he, htracks.append hwell (hC r)⟩
  · exact .inr ⟨action, f, he, htracks.append hwell (hC r)⟩

/-- Pausing makes no call. -/
theorem Goes.rest {C : Nat → List MadeCall → Prop} {s : SleepPolicy} {next : Proc RoundEnd}
    {ds : List Deed} {e : RoundEnd} (hplays : Plays (rest s >>= fun _ => next) ds (.done e))
    (hnext : ∀ ds', Plays next ds' (.done e) → (∀ d ∈ ds', d ∈ ds) → p.Goes items C ds' e) :
    p.Goes items C ds e := by
  obtain ⟨ds₁, ds₂, _, rfl, hrest, hplays⟩ := hplays.of_bind_done
  have hnone : callsOf ds₁ = [] := callsOf_eq_nil (hrest.forall_effect (rest_unasked s))
  have hgoes := hnext ds₂ hplays fun d hd => List.mem_append_right _ hd
  refine hgoes.append (fun x hx => ?_) fun r zs hzs => ?_
  · rw [hnone] at hx
    cases hx
  · rwa [hnone, List.nil_append]

/-- An action and what follows it.  If the action fails, the rest of the round is still to come. -/
theorem Follows.goes {α : Type} {C : List MadeCall → Prop} {D : Nat → List MadeCall → Prop}
    {action : Action} {F : Attempt α} {next : Proc RoundEnd} {ds : List Deed} {e : RoundEnd}
    (hF : p.Follows C F) (haction : action ≠ .remove)
    (hplays : Plays (attempt action F next) ds (.done e)) (hD : ∃ zs, D 0 zs)
    (hnext : ∀ ds', Plays next ds' (.done e) → (∀ d ∈ ds', d ∈ ds) → p.Goes items D ds' e) :
    p.Goes items (fun r => Then C (D r)) ds e := by
  obtain ⟨zs, hzs⟩ := hD
  obtain ⟨ds₁, ds₂, r, rfl, hplayed, hrest⟩ := Plays.of_bind_done hplays
  rcases hF _ _ hplayed with ⟨a, rfl, htracks⟩ | ⟨f, rfl, htracks⟩
  · obtain ⟨hC, hwell⟩ := htracks.of_none
    have hgoes := hnext ds₂ hrest fun d hd => List.mem_append_right _ hd
    exact hgoes.append hwell fun r zs hzs => ⟨_, zs, rfl, hC, hzs⟩
  · obtain ⟨rfl, he⟩ := Plays.done_nil hrest
    cases he
    rw [List.append_nil]
    refine ⟨0, .inl rfl, .inr ⟨action, f, rfl, ?_⟩, ?_⟩
    · exact htracks.extend fun us hus => ⟨zs, us, zs, rfl, hus, hzs⟩
    · rintro (he | ⟨f', he⟩)
      · cases he
      · cases he
        exact absurd rfl haction

/-- The removal goes through the first elements, as many as are drawn. -/
theorem removeSome_goes (helements : p.config.elements = listed items) {h : Handle}
    {ds : List Deed} {e : RoundEnd}
    (hplays : Plays (attempt .remove (p.removeSome h) (pure .completed)) ds (.done e))
    (hdrawn : ∀ d ∈ ds, d.IsDrawn) :
    p.Goes items (fun r => p.Removing (items.take r)) ds e := by
  have hlength : p.config.elements.length = items.length := by
    rw [helements, List.length_map]
  obtain ⟨ds₁, ds₂, r, rfl, hplayed, hrest⟩ := Plays.of_bind_done hplays
  rw [removeSome, hlength] at hplayed
  cases hplayed with
  | @cons _ _ n ds _ hplayed =>
    obtain ⟨d, rfl⟩ : Deed.IsDrawn ⟨.pick (removalCount items.length), n⟩ :=
      hdrawn _ List.mem_cons_self
    -- The number drawn is fixed from here on.
    have hbound := take_removalCount items.length d
    generalize ((removalCount items.length).take d).1 = n at *
    have htake : p.config.elements.take n = listed (items.take n) := by
      rw [helements, listed, listed, List.map_take]
    have hplayed : Plays (p.remove h (p.config.elements.take n) 0).run ds (.done r) := hplayed
    rw [htake] at hplayed
    refine ⟨n, hbound, ?_, fun _ => List.mem_cons_self⟩
    rcases remove_follows h _ 0 ds r hplayed with ⟨a, rfl, htracks⟩ | ⟨f, rfl, htracks⟩
    · obtain ⟨rfl, he⟩ := Plays.done_nil hrest
      cases he
      rw [List.append_nil]
      exact .inl ⟨rfl, htracks⟩
    · obtain ⟨rfl, he⟩ := Plays.done_nil hrest
      cases he
      rw [List.append_nil]
      exact .inr ⟨_, f, rfl, htracks⟩

/-- The calls of a round keep to a course, whatever they are answered. -/
theorem round_goes (helements : p.config.elements = listed items) {h : Handle} {ds : List Deed}
    {e : RoundEnd} (hplays : Plays (p.round h) ds (.done e)) (hdrawn : ∀ d ∈ ds, d.IsDrawn) :
    p.Goes items (p.Course items) ds e := by
  obtain ⟨bs, hbs⟩ := p.exists_reading items
  obtain ⟨cs, hcs⟩ := p.exists_removing (items.take 0)
  rw [round, ingestAll, helements] at hplays
  refine (ingest_follows h items 0).goes (by decide) hplays ⟨bs ++ cs, bs, cs, rfl, hbs, hcs⟩
    fun ds₁ hplays₁ hmem₁ => ?_
  refine Goes.rest hplays₁ fun ds₂ hplays₂ hmem₂ => ?_
  refine (readAll_follows h items).goes (by decide) hplays₂ ⟨cs, hcs⟩ fun ds₃ hplays₃ hmem₃ => ?_
  refine Goes.rest hplays₃ fun ds₄ hplays₄ hmem₄ => ?_
  exact removeSome_goes helements hplays₄ fun d hd =>
    hdrawn d (hmem₁ d (hmem₂ d (hmem₃ d (hmem₄ d hd))))

end Partition

end GridBench
