/-
  GridBench.Proofs.Run.Round

  What a round does that nothing disturbs.  The elements have identifiers and
  serialised forms, and the map holds under each of their keys nothing or the
  right value (`Partition.Sane`).  Ingesting then leaves all of them in the
  map, reading them back succeeds, and removing leaves those behind the first
  `r`, where `r` is the number drawn (`Partition.Left`).  The loop invariant of
  all rounds is what removing leaves; it is stated for one round
  (`round_fair`) and carried through all of them (`rounds_fair`).
-/
import Mathlib.Data.List.Nodup
import GridBench.Proofs.Naming.Keys
import GridBench.Proofs.Run.Replica

namespace GridBench

namespace Proc

variable {α β τ : Type} {c : Terms τ} {t : τ}

/-! ## Parts that may come to an end early -/

/-- A sequence whose first part succeeds. -/
theorem Keeps.attempt_bind {F : Attempt α} {G : α → Attempt β} {Q : τ → α → Prop}
    {R : τ → Except Trouble β → Prop}
    (h : F.run.Keeps c (fun t r => ∃ a, r = .ok a ∧ Q t a) t)
    (hG : ∀ t a, Q t a → (G a).run.Keeps c R t) : (F >>= G).run.Keeps c R t := by
  refine h.bind fun t r hr => ?_
  obtain ⟨a, rfl, hQ⟩ := hr
  exact hG t a hQ

theorem Keeps.attempt_lift {F : Proc α} {Q : τ → α → Prop} (h : F.Keeps c Q t) :
    (liftM F : Attempt α).run.Keeps c (fun t r => ∃ a, r = .ok a ∧ Q t a) t :=
  h.bind fun _ a hQ => ⟨a, rfl, hQ⟩

end Proc

namespace Partition

open Proc

variable {p : Partition}

/-- A call that fails ends the action it belongs to. -/
theorem call_keeps {α τ : Type} {c : Terms τ} {t : τ} {h : Handle} {call : MapCall}
    {G : call.Answer → Attempt α} {Q : τ → Except Trouble α → Prop}
    (hmay : c.may t (.ask (.call h call) none))
    (hfailed : ∀ f, c.admits t ⟨.ask (.call h call) none, .error f⟩ →
      Q (c.after t ⟨.ask (.call h call) none, .error f⟩) (.error (.failed f)))
    (hG : ∀ a, c.admits t ⟨.ask (.call h call) none, .ok a⟩ →
      (G a).run.Keeps c Q (c.after t ⟨.ask (.call h call) none, .ok a⟩)) :
    (Attempt.call h call >>= G).run.Keeps c Q t := by
  refine ⟨hmay, fun a ha => ?_⟩
  match a with
  | .ok a => exact hG a ha
  | .error f => exact hfailed f ha

/-- An action that fails or crashes ends its round. -/
theorem attempt_keeps {α τ : Type} {c : Terms τ} {t : τ} {action : Action} {F : Attempt α}
    {next : Proc RoundEnd} {Q : τ → Except Trouble α → Prop} {R : τ → RoundEnd → Prop}
    (hF : F.run.Keeps c Q t) (hfailed : ∀ t f, Q t (.error (.failed f)) → R t (.failed action f))
    (hcrashed : ∀ t message, Q t (.error (.crashed message)) → R t (.crashed message))
    (hnext : ∀ t a, Q t (.ok a) → next.Keeps c R t) : (attempt action F next).Keeps c R t := by
  refine hF.bind fun t r hr => ?_
  match r with
  | .ok a => exact hnext t a hr
  | .error (.failed f) => exact hfailed t f hr
  | .error (.crashed message) => exact hcrashed t message hr

/-- Effects that publish no failure. -/
def Thrives (p : Partition) : Effect → Prop
  | .publish u => ∃ n : Nat, u = .update (completedKey p.number) (.ofNat n)
  | _ => True

/-- The terms of a worker that is answered truthfully and has nothing to complain about. -/
abbrev fair (p : Partition) : Terms Sight := .truthful p.Thrives

theorem say_fair (severity : Severity) (message : String) (t : Sight) :
    (say severity message).Keeps p.fair (fun t' _ => t' = t) t :=
  ⟨trivial, fun _ _ => rfl⟩

theorem tell_fair (severity : Severity) (message : String) (t : Sight) :
    (p.tell severity message).Keeps p.fair (fun t' _ => t' = t) t :=
  say_fair _ _ t

/-- Pausing may pick a number, and leaves the entries alone. -/
theorem rest_fair (s : SleepPolicy) (t : Sight) :
    (rest s).Keeps p.fair (fun t' _ => t'.entries = t.entries) t := by
  unfold rest
  split
  · exact ⟨trivial, fun _ _ => ⟨trivial, fun _ _ => ⟨trivial, fun _ _ => rfl⟩⟩⟩
  · exact rfl

theorem announce_fair (run : Nat) (t : Sight) :
    (p.announce run).Keeps p.fair (fun t' _ => t' = t) t := by
  unfold announce
  split
  · exact ⟨trivial, fun _ _ => ⟨trivial, fun _ _ => rfl⟩⟩
  · exact ⟨trivial, fun _ _ => rfl⟩

theorem call_fair (h : Handle) (c : MapCall) (t : Sight) :
    (Attempt.call h c).run.Keeps p.fair
      (fun t' r => ∃ a, r = .ok a ∧
        (a = (c.apply t.entries).1 ∧ t' = { t with entries := (c.apply t.entries).2 })) t := by
  refine ⟨trivial, fun a ha => ?_⟩
  obtain rfl : a = .ok (c.apply t.entries).1 := ha
  exact ⟨_, rfl, rfl, rfl⟩

theorem ofExcept_ok {α : Type} (a : α) : Attempt.ofExcept (.ok a) = pure a := rfl

/-! ## The elements and their places in the map -/

/-- The elements of a partition, by their identifiers and serialised forms, and what is asked of
    them: the identifiers are distinct, and the forms pass the check made when they are read. -/
structure Stock (p : Partition) (items : List (String × Json)) : Prop where
  elements : p.config.elements = items.map fun i => ⟨.ok i.1, .ok i.2⟩
  distinct : (items.map Prod.fst).Nodup
  check : ∀ i ∈ items, p.config.check i.2 = .ok ()

/-- The key of an element with an identifier. -/
def place (p : Partition) (i : String × Json) : String :=
  storageKey p.config.client p.number i.1

/-- Under the key of each element there is nothing, or the element. -/
def Sane (p : Partition) (items : List (String × Json)) (e : Entries) : Prop :=
  ∀ i ∈ items, e[p.place i]? = none ∨ e[p.place i]? = some i.2

/-- The first `r` elements are not in the map, and the others are. -/
structure Left (p : Partition) (items : List (String × Json)) (r : Nat) (e : Entries) : Prop where
  removed : ∀ i ∈ items.take r, e[p.place i]? = none
  kept : ∀ i ∈ items.drop r, e[p.place i]? = some i.2

variable {items : List (String × Json)}

/-- The keys of the elements are their places. -/
theorem owns_iff (h : p.config.elements = items.map fun i => ⟨.ok i.1, .ok i.2⟩) {key : String} :
    p.Owns key ↔ ∃ i ∈ items, key = p.place i := by
  unfold Owns
  rw [h]
  constructor
  · rintro ⟨e, he, hk⟩
    obtain ⟨i, hi, rfl⟩ := List.mem_map.mp he
    exact ⟨i, hi, (Except.ok.inj hk).symm⟩
  · rintro ⟨i, hi, rfl⟩
    exact ⟨_, List.mem_map_of_mem hi, rfl⟩

theorem Left.sane {r : Nat} {e : Entries} (h : p.Left items r e) : p.Sane items e := by
  intro i hi
  rw [← List.take_append_drop r items] at hi
  rcases List.mem_append.mp hi with hi | hi
  · exact .inl (h.removed i hi)
  · exact .inr (h.kept i hi)

/-- Elements with different identifiers have different places. -/
theorem Stock.eq_of_place (h : p.Stock items) {i j : String × Json} (hi : i ∈ items)
    (hj : j ∈ items) (hij : p.place i = p.place j) : i = j :=
  List.inj_on_of_nodup_map h.distinct hi hj (storageKey_inj_of_client hij).2

/-- A call for one element leaves the places of the others alone. -/
theorem Stock.apply_other (h : p.Stock items) {i j : String × Json} (hi : i ∈ items)
    (hj : j ∈ items) (hij : i ≠ j) {c : MapCall} (hc : c.key = p.place j) (e : Entries) :
    (c.apply e).2[p.place i]? = e[p.place i]? := by
  refine MapCall.apply_other fun hkey => hij (h.eq_of_place hi hj ?_)
  rw [hkey, hc]

variable {i j : String × Json} {is : List (String × Json)} {e : Entries}

theorem Stock.insert_other (h : p.Stock items) (hi : i ∈ items) (hj : j ∈ items) (hij : i ≠ j)
    (e : Entries) (v : Json) : (e.insert (p.place j) v)[p.place i]? = e[p.place i]? :=
  h.apply_other (c := .set (p.place j) v) hi hj hij rfl e

theorem Stock.erase_other (h : p.Stock items) (hi : i ∈ items) (hj : j ∈ items) (hij : i ≠ j)
    (e : Entries) : (e.erase (p.place j))[p.place i]? = e[p.place i]? :=
  h.apply_other (c := .remove (p.place j)) hi hj hij rfl e

/-- What is there under the key of an element is the element. -/
theorem Sane.eq_some (h : p.Sane items e) (hi : i ∈ items) (hthere : e[p.place i]?.isSome = true) :
    e[p.place i]? = some i.2 := by
  refine (h i hi).resolve_left fun hnone => ?_
  rw [hnone] at hthere
  cases hthere

/-- Storing an element is sane. -/
theorem Sane.insert (h : p.Sane items e) (hstock : p.Stock items) (hj : j ∈ items) :
    p.Sane items (e.insert (p.place j) j.2) := by
  intro i hi
  by_cases hij : i = j
  · exact .inr (hij ▸ Std.ExtTreeMap.getElem?_insert_self)
  · rw [hstock.insert_other hi hj hij]
    exact h i hi

/-- An element that is there already need not be among those that are still to be stored. -/
theorem mem_or_stored (hj : e[p.place j]? = some j.2)
    (hi : i ∈ j :: is ∨ e[p.place i]? = some i.2) : i ∈ is ∨ e[p.place i]? = some i.2 := by
  rcases hi with hi | hi
  · rcases List.mem_cons.mp hi with rfl | hi
    · exact .inr hj
    · exact .inl hi
  · exact .inr hi

/-- Nor need one that is stored now. -/
theorem Stock.mem_or_insert (h : p.Stock items) (hi : i ∈ items) (hj : j ∈ items)
    (hin : i ∈ j :: is ∨ e[p.place i]? = some i.2) :
    i ∈ is ∨ (e.insert (p.place j) j.2)[p.place i]? = some i.2 := by
  refine mem_or_stored Std.ExtTreeMap.getElem?_insert_self ?_
  by_cases hij : i = j
  · exact .inl (hij ▸ List.mem_cons_self)
  · rwa [h.insert_other hi hj hij]

theorem key_item (p : Partition) (i : String × Json) :
    p.keyOf ⟨.ok i.1, .ok i.2⟩ = pure (p.place i) := rfl

/-! ## Actions -/

/-- The elements as the configuration lists them. -/
abbrev listed (items : List (String × Json)) : List Element := items.map fun i => ⟨.ok i.1, .ok i.2⟩

/-- Ingesting leaves the elements it goes through in the map, and those that were there. -/
theorem ingest_fair (hstock : p.Stock items) (h : Handle) {is : List (String × Json)}
    (his : ∀ i ∈ is, i ∈ items) (n : Nat) {t : Sight} (hsane : p.Sane items t.entries) :
    (p.ingest h (listed is) n).run.Keeps p.fair
      (fun t' r => ∃ m, r = .ok m ∧ ∀ i ∈ items,
        i ∈ is ∨ t.entries[p.place i]? = some i.2 → t'.entries[p.place i]? = some i.2) t := by
  induction is generalizing n t with
  | nil =>
    simp only [listed, List.map_nil, ingest]
    refine .attempt_bind (.attempt_lift (say_fair _ _ t)) fun t' _ ht' => ?_
    exact ⟨_, rfl, fun i _ hi => ht' ▸ hi.resolve_left List.not_mem_nil⟩
  | cons j is ih =>
    have hj : j ∈ items := his j List.mem_cons_self
    have ih := ih fun i hi => his i (List.mem_cons_of_mem _ hi)
    simp only [listed, List.map_cons, ingest, key_item, pure_bind]
    refine .attempt_bind (call_fair h _ t) fun t' present ht' => ?_
    obtain ⟨rfl, rfl⟩ := ht'
    split
    · -- The element is there already, and it is the right one.
      rename_i hpresent
      have hsome : t.entries[p.place j]? = some j.2 :=
        hsane.eq_some hj (Std.ExtTreeMap.contains_eq_isSome_getElem?.symm.trans hpresent)
      refine (ih n hsane).mono fun t' r hr => ?_
      obtain ⟨m, rfl, hm⟩ := hr
      exact ⟨m, rfl, fun i hi hin => hm i hi (mem_or_stored hsome hin)⟩
    · -- The element is stored; the places of the others stay as they are, and sane.
      simp only [ofExcept_ok, pure_bind]
      refine .attempt_bind (call_fair h _ t) fun t' _ ht' => ?_
      obtain ⟨_, rfl⟩ := ht'
      refine (ih (n + 1) (hsane.insert hstock hj)).mono fun t' r hr => ?_
      obtain ⟨m, rfl, hm⟩ := hr
      exact ⟨m, rfl, fun i hi hin => hm i hi (hstock.mem_or_insert hi hj hin)⟩

/-- Reading back succeeds when the elements are there, and changes nothing. -/
theorem readAll_fair (hstock : p.Stock items) (h : Handle) {is : List (String × Json)}
    (his : ∀ i ∈ is, i ∈ items) {t : Sight} (hfull : ∀ i ∈ is, t.entries[p.place i]? = some i.2) :
    (p.readAll h (listed is)).run.Keeps p.fair (fun t' r => ∃ a, r = .ok a ∧ t' = t) t := by
  induction is with
  | nil =>
    simp only [listed, List.map_nil, readAll]
    exact .attempt_bind (.attempt_lift (say_fair _ _ t)) fun t' _ ht' => ⟨_, rfl, ht'⟩
  | cons j is ih =>
    have hj : j ∈ items := his j List.mem_cons_self
    have ih := ih (fun i hi => his i (List.mem_cons_of_mem _ hi))
      fun i hi => hfull i (List.mem_cons_of_mem _ hi)
    simp only [listed, List.map_cons, readAll, key_item, pure_bind]
    refine .attempt_bind (call_fair h _ t) fun t' answer ht' => ?_
    obtain ⟨hanswer, rfl⟩ := ht'
    -- What is read back is the serialised form of the element, and passes the check.
    have hsome : answer = some j.2 := hanswer.trans (hfull j List.mem_cons_self)
    subst hsome
    simp only [hstock.check j hj, ofExcept_ok, pure_bind]
    exact ih

/-- Removing takes the elements it goes through out of the map, and leaves the others alone. -/
theorem remove_fair (hstock : p.Stock items) (h : Handle) {is : List (String × Json)}
    (his : ∀ i ∈ is, i ∈ items) (n : Nat) (t : Sight) :
    (p.remove h (listed is) n).run.Keeps p.fair
      (fun t' r => ∃ m, r = .ok m ∧ t'.picked = t.picked ∧
        (∀ i ∈ is, t'.entries[p.place i]? = none) ∧
        ∀ i ∈ items, i ∉ is → t'.entries[p.place i]? = t.entries[p.place i]?) t := by
  induction is generalizing n t with
  | nil =>
    simp only [listed, List.map_nil, remove]
    refine .attempt_bind (.attempt_lift (say_fair _ _ t)) fun t' _ ht' => ?_
    subst ht'
    exact ⟨_, rfl, rfl, fun i hi => absurd hi List.not_mem_nil, fun _ _ _ => rfl⟩
  | cons j is ih =>
    have hj : j ∈ items := his j List.mem_cons_self
    have ih := ih fun i hi => his i (List.mem_cons_of_mem _ hi)
    -- Once the first place is empty, the rest of the elements are gone through.
    have hrest : ∀ (m : Nat) (e : Entries), e[p.place j]? = none →
        (∀ i ∈ items, i ≠ j → e[p.place i]? = t.entries[p.place i]?) →
        (p.remove h (listed is) m).run.Keeps p.fair
          (fun t' r => ∃ m, r = .ok m ∧ t'.picked = t.picked ∧
            (∀ i ∈ j :: is, t'.entries[p.place i]? = none) ∧
            ∀ i ∈ items, i ∉ j :: is → t'.entries[p.place i]? = t.entries[p.place i]?)
          { t with entries := e } := by
      intro m e hnone hothers
      refine (ih m { t with entries := e }).mono fun t' r hr => ?_
      obtain ⟨m', rfl, hpicked, hgone, hkept⟩ := hr
      refine ⟨m', rfl, hpicked, fun i hi => ?_, fun i hi hnot => ?_⟩
      · by_cases hin : i ∈ is
        · exact hgone i hin
        · obtain rfl := (List.mem_cons.mp hi).resolve_right hin
          exact (hkept i hj hin).trans hnone
      · rw [hkept i hi fun hin => hnot (List.mem_cons_of_mem _ hin)]
        exact hothers i hi fun hij => hnot (hij ▸ List.mem_cons_self)
    simp only [listed, List.map_cons, remove, key_item, pure_bind]
    refine .attempt_bind (call_fair h _ t) fun t' present ht' => ?_
    obtain ⟨hpresent, rfl⟩ := ht'
    split
    · refine .attempt_bind (call_fair h _ t) fun t' _ ht' => ?_
      obtain ⟨_, rfl⟩ := ht'
      refine hrest _ _ Std.ExtTreeMap.getElem?_erase_self fun i hi hij => ?_
      exact hstock.erase_other hi hj hij _
    · rename_i habsent
      refine hrest _ _ ?_ fun _ _ _ => rfl
      have hcontains : t.entries.contains (p.place j) = false :=
        hpresent.symm.trans (Bool.eq_false_iff.mpr habsent)
      rw [Std.ExtTreeMap.contains_eq_isSome_getElem?] at hcontains
      exact Option.isNone_iff_eq_none.mp (Option.isSome_eq_false_iff.mp hcontains)

/-! ## One round -/

/-- What holds of the map after a round: the elements behind the number drawn last are left. -/
def Drawn (p : Partition) (items : List (String × Json)) (t : Sight) : Prop :=
  ∃ r, t.picked = some (removalCount items.length, r) ∧ (r = 0 ∨ r < items.length) ∧
    p.Left items r t.entries

/-- A draw for the removal is below the number of elements, if there are any. -/
theorem take_removalCount (n : Nat) (d : Draws) :
    ((removalCount n).take d).1 = 0 ∨ ((removalCount n).take d).1 < n := by
  unfold removalCount
  split
  · exact .inl rfl
  · rename_i hn
    exact .inr (d.rule.below_lt (Nat.pos_of_ne_zero hn) _)

theorem removeSome_fair (hstock : p.Stock items) (h : Handle) {t : Sight}
    (hfull : ∀ i ∈ items, t.entries[p.place i]? = some i.2) :
    (p.removeSome h).run.Keeps p.fair (fun t' r => ∃ m, r = .ok m ∧ p.Drawn items t') t := by
  have hlength : p.config.elements.length = items.length := by
    rw [hstock.elements, List.length_map]
  rw [removeSome, hlength]
  refine .attempt_bind (.attempt_lift (Q := fun t' r =>
    t' = { t with picked := some (removalCount items.length, r) } ∧
      (r = 0 ∨ r < items.length)) ⟨trivial, fun r hr => ?_⟩) fun t' r ht' => ?_
  · obtain ⟨d, rfl⟩ := hr
    exact ⟨rfl, take_removalCount _ d⟩
  · obtain ⟨rfl, hr⟩ := ht'
    have htake : p.config.elements.take r = listed (items.take r) := by
      rw [hstock.elements, listed, List.map_take]
    rw [htake]
    refine (remove_fair hstock h (fun i hi => List.mem_of_mem_take hi) 0 _).mono
      fun t' r' hr' => ?_
    obtain ⟨m, rfl, hpicked, hgone, hkept⟩ := hr'
    refine ⟨m, rfl, r, hpicked, hr, hgone, fun i hi => ?_⟩
    -- No element stands twice in the list, so those behind the first `r` were not gone through.
    have hnot : i ∉ items.take r := fun htaken =>
      List.disjoint_take_drop hstock.distinct.of_map (Nat.le_refl r) htaken hi
    rw [hkept i (List.mem_of_mem_drop hi) hnot]
    exact hfull i (List.mem_of_mem_drop hi)

/-- An action that succeeds, with what follows it. -/
theorem attempt_fair {α : Type} {action : Action} {F : Attempt α} {next : Proc RoundEnd}
    {Q : Sight → Prop} {R : Sight → RoundEnd → Prop} {t : Sight}
    (hF : F.run.Keeps p.fair (fun t' r => ∃ a, r = .ok a ∧ Q t') t)
    (hnext : ∀ t', Q t' → next.Keeps p.fair R t') :
    (attempt action F next).Keeps p.fair R t := by
  refine hF.bind fun t' r hr => ?_
  obtain ⟨a, rfl, hQ⟩ := hr
  exact hnext t' hQ

/-- A round on a sane map is completed, and leaves the elements behind the number drawn. -/
theorem round_fair (hstock : p.Stock items) (h : Handle) {t : Sight}
    (hsane : p.Sane items t.entries) :
    (p.round h).Keeps p.fair (fun t' e => e = .completed ∧ p.Drawn items t') t := by
  have hfull : ∀ t₁ t₂ : Sight, t₂.entries = t₁.entries →
      (∀ i ∈ items, t₁.entries[p.place i]? = some i.2) →
      ∀ i ∈ items, t₂.entries[p.place i]? = some i.2 := fun t₁ t₂ ht h => ht ▸ h
  have hingest : (p.ingestAll h).run.Keeps p.fair (fun t' r => ∃ m, r = .ok m ∧
      ∀ i ∈ items, t'.entries[p.place i]? = some i.2) t := by
    rw [ingestAll, hstock.elements]
    refine (ingest_fair hstock h (fun _ hi => hi) 0 hsane).mono fun t' r hr => ?_
    obtain ⟨m, rfl, hm⟩ := hr
    exact ⟨m, rfl, fun i hi => hm i hi (.inl hi)⟩
  -- The pauses between the actions may pick a number, and leave the entries alone.
  refine attempt_fair hingest fun t₁ h₁ => ?_
  refine (rest_fair _ t₁).bind fun t₂ _ ht₂ => ?_
  have h₂ := hfull t₁ t₂ ht₂ h₁
  have hread : (p.readAll h p.config.elements).run.Keeps p.fair
      (fun t' r => ∃ a, r = .ok a ∧ t' = t₂) t₂ := by
    rw [hstock.elements]
    exact readAll_fair hstock h (fun _ hi => hi) h₂
  refine attempt_fair hread fun t₃ ht₃ => ?_
  subst ht₃
  refine (rest_fair _ t₃).bind fun t₄ _ ht₄ => ?_
  refine attempt_fair (removeSome_fair hstock h (hfull t₃ t₄ ht₄ h₂)) fun t₅ h₅ => ?_
  exact ⟨rfl, h₅⟩

theorem iteration_fair (hstock : p.Stock items) (h : Handle) (run : Nat) {t : Sight}
    (hsane : p.Sane items t.entries) :
    (p.iteration h run).Keeps p.fair (fun t' e => e = .completed ∧ p.Drawn items t') t := by
  refine (rest_fair _ t).bind fun t₁ _ ht₁ => ?_
  refine (announce_fair run t₁).bind fun t₂ _ ht₂ => ?_
  subst ht₂
  exact round_fair hstock h (ht₁ ▸ hsane)

/-! ## All rounds -/

/-- What a round leaves is sane, so every round is completed, and the last one leaves what all of
    them leave. -/
theorem rounds_fair (hstock : p.Stock items) (h : Handle) (left run completed failed : Nat)
    {t : Sight} (ht : p.Sane items t.entries) (hleft : left = 0 → p.Drawn items t) :
    (p.rounds h left run completed failed).Keeps p.fair
      (fun t' r => r = none ∧ p.Drawn items t') t := by
  -- The invariant is that the map is sane; what the last removal left is handed on with it.
  induction left generalizing run completed failed t with
  | zero =>
    rw [rounds]
    refine (tell_fair _ _ t).bind fun t' _ ht' => ?_
    subst ht'
    exact ⟨rfl, hleft rfl⟩
  | succ left ih =>
    rw [rounds_succ]
    refine (iteration_fair hstock h run ht).bind fun t₁ e h₁ => ?_
    obtain ⟨rfl, hdrawn⟩ := h₁
    obtain ⟨r, hr, hbound, hafter⟩ := hdrawn
    exact ⟨⟨_, rfl⟩, fun _ _ => ih (run + 1) (completed + 1) failed hafter.sane
      fun _ => ⟨r, hr, hbound, hafter⟩⟩

/-- A worker that nothing disturbs ends without a crash. -/
theorem work_fair (hstock : p.Stock items) (hruns : p.config.plan.numRuns.toNat ≠ 0) {t : Sight}
    (ht : p.Sane items t.entries) :
    p.work.Keeps p.fair (fun t' r => r = none ∧ p.Drawn items t') t := by
  have hmay : ∀ e, Aside e → p.Thrives e := fun e he => by
    match e, he with
    | .ask .., _ | .pause _, _ | .clock, _ | .log _, _ => trivial
  rw [work_eq]
  refine (enter_truthful p.Thrives hmay t).bind fun t₁ a h₁ => ?_
  obtain ⟨rfl, n, rfl⟩ := h₁
  refine (rounds_fair hstock _ _ 0 0 0 ht fun h => absurd h hruns).bind fun t₂ crash h₂ => ?_
  obtain ⟨rfl, hdrawn⟩ := h₂
  refine ⟨trivial, fun a ha => ?_⟩
  obtain rfl : a = .ok () := ha
  exact ⟨rfl, hdrawn⟩

end Partition

end GridBench
