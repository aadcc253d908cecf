/-
  GridBench.Proofs.Run.Bill

  What the calls of a worker cost that nothing disturbs, counter by counter.
  The answers tell the entries of the map (`Told`), and so they fix which
  elements are written and which are removed: a round writes as many elements as
  the round before it removed (`Course.told`).  The bill of all rounds follows
  from the numbers drawn for their removals (`Tour.spent`), where the first round
  finds as many elements missing as there are.
-/
import GridBench.Proofs.Run.Calls
import GridBench.Proofs.Store.Counters

namespace GridBench

namespace Partition

open Proc

/-- How often a counter went on in a list of calls. -/
def spent (c : Counter) (xs : List MadeCall) : Nat := xs.countP fun x => x.1.counter = c

theorem spent_append (c : Counter) (xs ys : List MadeCall) :
    spent c (xs ++ ys) = spent c xs + spent c ys := List.countP_append

theorem spent_cons (c : Counter) (x : MadeCall) (xs : List MadeCall) :
    spent c (x :: xs) = spent c xs + if x.1.counter = c then 1 else 0 := by
  rw [spent, spent, List.countP_cons]
  simp

/-- What it costs to look for `n` elements and to write the `k` that are missing. -/
def ingestCost (n k : Nat) : Counter → Nat
  | .containsKey => n
  | .set => k
  | _ => 0

/-- What it costs to read `n` elements. -/
def readCost (n : Nat) : Counter → Nat
  | .get => n
  | _ => 0

/-- What it costs to remove `r` elements that are all there. -/
def removeCost (r : Nat) : Counter → Nat
  | .containsKey => r
  | .remove => r
  | _ => 0

/-- What rounds on `n` elements cost, by the numbers of elements they removed, where the first round
    finds `k` of them missing. -/
def roundsCost (n k : Nat) (rs : List Nat) : Counter → Nat
  | .containsKey => rs.length * n + rs.sum
  | .get => rs.length * n
  | .set => (k :: rs).dropLast.sum
  | .remove => rs.sum
  | _ => 0

/-- The cost of one more round in front. -/
theorem roundsCost_cons (n k r : Nat) (rs : List Nat) (c : Counter) :
    roundsCost n k (r :: rs) c =
      ingestCost n k c + readCost n c + removeCost r c + roundsCost n r rs c := by
  cases c with
  | containsKey | get =>
    simp only [roundsCost, ingestCost, readCost, removeCost, List.length_cons, List.sum_cons,
      Nat.add_mul]
    omega
  | set =>
    show (k :: r :: rs).dropLast.sum = k + 0 + 0 + (r :: rs).dropLast.sum
    rw [List.dropLast_cons_cons, List.sum_cons]
    omega
  | remove =>
    show (r :: rs).sum = 0 + 0 + r + rs.sum
    rw [List.sum_cons]
    omega
  | getMap | destroy => rfl

/-! ## Truthful answers -/

/-- The answers are those of a map with the given entries on which no other calls are made. -/
def Told : Entries → List MadeCall → Prop
  | _, [] => True
  | e, x :: xs => x.2 = .ok (x.1.apply e).1 ∧ Told (x.1.apply e).2 xs

/-- What calls make of the entries of a map. -/
def outcome (e : Entries) (xs : List MadeCall) : Entries :=
  xs.foldl (fun e x => (x.1.apply e).2) e

variable {p : Partition} {e : Entries} {items is : List (String × Json)} {xs ys : List MadeCall}

theorem outcome_append (e : Entries) (xs ys : List MadeCall) :
    outcome e (xs ++ ys) = outcome (outcome e xs) ys := List.foldl_append

theorem told_append : Told e (xs ++ ys) ↔ Told e xs ∧ Told (outcome e xs) ys := by
  induction xs generalizing e with
  | nil => exact ⟨fun h => ⟨trivial, h⟩, fun h => h.2⟩
  | cons x xs ih => exact (and_congr_right fun _ => ih).trans and_assoc.symm

/-- The calls of a worker that was answered truthfully. -/
theorem told_of_grants {t : Sight} {ds : List Deed} (h : Terms.seen.Grants t ds) :
    Told t.entries (callsOf ds) := by
  induction ds generalizing t with
  | nil => trivial
  | cons d ds ih =>
    have hrest := ih h.2
    match d with
    | ⟨.ask (.call _ c) _, a⟩ => exact ⟨h.1, hrest⟩
    | ⟨.ask (.acquire _) _, _⟩ | ⟨.ask (.release _) _, _⟩ | ⟨.pause _, _⟩ | ⟨.clock, _⟩
    | ⟨.pick _, _⟩ | ⟨.log _, _⟩ | ⟨.publish _, _⟩ => exact hrest

/-- No truthful answer is a failure. -/
theorem Told.exists_ok (h : Told e xs) : ∀ x ∈ xs, ∃ a, x.2 = .ok a := by
  induction xs generalizing e with
  | nil => exact fun x hx => absurd hx List.not_mem_nil
  | cons x xs ih => exact List.forall_mem_cons.mpr ⟨⟨_, h.1⟩, ih h.2⟩

/-- Calls that were answered truthfully were made. -/
theorem callsMade_of_told {σ : Type} {g : Grid σ} {as : List (Act σ)}
    (has : ∀ a ∈ as, a.Genuine g) (htold : Told e (callsOf (deedsOf as))) :
    callsMade as = callsOf (deedsOf as) := by
  refine callsMade_of_unrefused has fun c hc => ?_
  obtain ⟨a, ha⟩ := htold.exists_ok _ hc
  cases ha

/-- An element that is said to be there has its entry, and one that is not has none. -/
theorem isSome_of_told {key : String} {b : Bool} (h : Told e (⟨.containsKey key, .ok b⟩ :: xs)) :
    b = e[key]?.isSome ∧ Told e xs := by
  have hb : b = e.contains key := Except.ok.inj h.1
  exact ⟨hb.trans Std.ExtTreeMap.contains_eq_isSome_getElem?, h.2⟩

/-! ## The actions of a round -/

/-- Ingesting writes the elements that are missing, and leaves all of them in the map. -/
theorem Ingesting.told (hstock : p.Stock items) (his : ∀ i ∈ is, i ∈ items) (hdistinct : is.Nodup)
    (h : p.Ingesting is xs) (htold : Told e xs) (hsane : p.Sane items e) :
    (∀ c, spent c xs = ingestCost is.length (is.countP fun i => e[p.place i]?.isNone) c) ∧
      ∀ i ∈ items, i ∈ is ∨ e[p.place i]? = some i.2 →
        (outcome e xs)[p.place i]? = some i.2 := by
  induction h generalizing e with
  | nil =>
    refine ⟨fun c => ?_, fun i _ hi => hi.resolve_left List.not_mem_nil⟩
    cases c <;> rfl
  | @present j is xs _ ih =>
    obtain ⟨hj, his⟩ := List.forall_mem_cons.mp his
    obtain ⟨hthere, htold⟩ := isSome_of_told htold
    have hsome : e[p.place j]? = some j.2 := hsane.eq_some hj hthere.symm
    obtain ⟨hspent, hafter⟩ := ih his hdistinct.of_cons htold hsane
    refine ⟨fun c => ?_, fun i hi hin => hafter i hi (Partition.mem_or_stored hsome hin)⟩
    rw [spent_cons, hspent, List.countP_cons_of_neg (by simp [hsome])]
    cases c <;> rfl
  | @absent j is xs a _ ih =>
    obtain ⟨hj, his⟩ := List.forall_mem_cons.mp his
    obtain ⟨hnot, hfresh⟩ := List.nodup_cons.mp hdistinct
    obtain ⟨hthere, htold⟩ := isSome_of_told htold
    have hnone : e[p.place j]? = none :=
      Option.isNone_iff_eq_none.mp (Option.isSome_eq_false_iff.mp hthere.symm)
    obtain ⟨hspent, hafter⟩ := ih (e := e.insert (p.place j) j.2) his hfresh htold.2
      (hsane.insert hstock hj)
    -- What is written now is none of the elements that are still to be looked for.
    have hcount : (is.countP fun i => (e.insert (p.place j) j.2)[p.place i]?.isNone) =
        is.countP fun i => e[p.place i]?.isNone := by
      refine List.countP_congr fun i hi => ?_
      rw [hstock.insert_other (his i hi) hj fun hij => hnot (hij ▸ hi)]
    refine ⟨fun c => ?_, fun i hi hin => hafter i hi (hstock.mem_or_insert hi hj hin)⟩
    rw [spent_cons, spent_cons, hspent, hcount, List.countP_cons_of_pos (by simp [hnone])]
    cases c <;> rfl

/-- Reading costs one call for each element, and changes nothing. -/
theorem Reading.told (h : p.Reading is xs) (e : Entries) :
    (∀ c, spent c xs = readCost is.length c) ∧ outcome e xs = e := by
  induction h with
  | nil =>
    refine ⟨fun c => ?_, rfl⟩
    cases c <;> rfl
  | cons a _ ih =>
    refine ⟨fun c => ?_, ih.2⟩
    rw [spent_cons, ih.1]
    cases c <;> rfl

/-- Removing elements that are there takes all of them out of the map, and no others. -/
theorem Removing.told (hstock : p.Stock items) (his : ∀ i ∈ is, i ∈ items) (hdistinct : is.Nodup)
    (h : p.Removing is xs) (htold : Told e xs) (hfull : ∀ i ∈ is, e[p.place i]?.isSome) :
    (∀ c, spent c xs = removeCost is.length c) ∧
      (∀ i ∈ is, (outcome e xs)[p.place i]? = none) ∧
      ∀ i ∈ items, i ∉ is → (outcome e xs)[p.place i]? = e[p.place i]? := by
  induction h generalizing e with
  | nil =>
    refine ⟨fun c => ?_, fun i hi => absurd hi List.not_mem_nil, fun _ _ _ => rfl⟩
    cases c <;> rfl
  | @absent j is xs _ ih =>
    obtain ⟨hthere, -⟩ := isSome_of_told htold
    rw [hfull j List.mem_cons_self] at hthere
    cases hthere
  | @present j is xs a _ ih =>
    obtain ⟨hj, his⟩ := List.forall_mem_cons.mp his
    obtain ⟨hnot, hfresh⟩ := List.nodup_cons.mp hdistinct
    obtain ⟨-, htold⟩ := isSome_of_told htold
    have hfull' : ∀ i ∈ is, (e.erase (p.place j))[p.place i]?.isSome := by
      intro i hi
      rw [hstock.erase_other (his i hi) hj fun hij => hnot (hij ▸ hi)]
      exact hfull i (List.mem_cons_of_mem _ hi)
    obtain ⟨hspent, hgone, hkept⟩ := ih his hfresh htold.2 hfull'
    refine ⟨fun c => ?_, List.forall_mem_cons.mpr ⟨?_, hgone⟩, fun i hi hnotin => ?_⟩
    · rw [spent_cons, spent_cons, hspent]
      cases c <;> rfl
    · exact (hkept j hj hnot).trans Std.ExtTreeMap.getElem?_erase_self
    · rw [List.mem_cons, not_or] at hnotin
      exact (hkept i hi hnotin.2).trans (hstock.erase_other hi hj hnotin.1 e)

/-! ## One round -/

/-- The elements that are missing are those that were removed. -/
theorem Left.countP_isNone {k : Nat} (h : p.Left items k e) (hk : k ≤ items.length) :
    (items.countP fun i => e[p.place i]?.isNone) = k := by
  have hgone : (items.take k).countP (fun i => e[p.place i]?.isNone) = k := by
    rw [List.countP_eq_length.mpr fun i hi => by simp [h.removed i hi], List.length_take]
    omega
  have hkept : (items.drop k).countP (fun i => e[p.place i]?.isNone) = 0 :=
    List.countP_eq_zero.mpr fun i hi => by simp [h.kept i hi]
  calc
    (items.countP fun i => e[p.place i]?.isNone) =
        (items.take k ++ items.drop k).countP fun i => e[p.place i]?.isNone := by
      rw [List.take_append_drop]
    _ = k := by rw [List.countP_append, hgone, hkept, Nat.add_zero]

/-- What is left tells how many elements were removed. -/
theorem Left.unique {k r : Nat} (h : p.Left items k e) (h' : p.Left items r e)
    (hk : k ≤ items.length) (hr : r ≤ items.length) : k = r :=
  (h.countP_isNone hk).symm.trans (h'.countP_isNone hr)

/-- A whole round on a map from which the first `k` elements are missing. -/
theorem Course.told (hstock : p.Stock items) {k r : Nat} (h : p.Course items r xs)
    (htold : Told e xs) (hleft : p.Left items k e) (hk : k ≤ items.length)
    (hr : r ≤ items.length) :
    (∀ c, spent c xs =
      ingestCost items.length k c + readCost items.length c + removeCost r c) ∧
      p.Left items r (outcome e xs) := by
  obtain ⟨us, _, rfl, hus, vs, zs, rfl, hvs, hzs⟩ := h
  obtain ⟨htold₁, htold'⟩ := told_append.mp htold
  have htold₃ := (told_append.mp htold').2
  have hdistinct : items.Nodup := hstock.distinct.of_map
  obtain ⟨hspent₁, hfull⟩ := hus.told hstock (fun _ hi => hi) hdistinct htold₁ hleft.sane
  have hfull : ∀ i ∈ items, (outcome e us)[p.place i]? = some i.2 :=
    fun i hi => hfull i hi (.inl hi)
  obtain ⟨hspent₂, hsame⟩ := hvs.told (outcome e us)
  rw [hsame] at htold₃
  obtain ⟨hspent₃, hgone, hkept⟩ := hzs.told hstock (fun i hi => List.mem_of_mem_take hi)
    (hdistinct.sublist (List.take_sublist r items)) htold₃ fun i hi => by
      rw [hfull i (List.mem_of_mem_take hi)]
      rfl
  rw [outcome_append, outcome_append, hsame]
  refine ⟨fun c => ?_, hgone, fun i hi => ?_⟩
  · rw [spent_append, spent_append, hspent₁, hspent₂, hspent₃, hleft.countP_isNone hk,
      List.length_take, Nat.min_eq_left hr]
    omega
  · -- No element stands twice in the list, so those behind the first `r` are not removed.
    have hnot : i ∉ items.take r := fun htaken =>
      List.disjoint_take_drop hdistinct (Nat.le_refl r) htaken hi
    rw [hkept i (List.mem_of_mem_drop hi) hnot]
    exact hfull i (List.mem_of_mem_drop hi)

variable {t : Sight} {ds : List Deed}

theorem isDrawn_of_grants (h : Terms.seen.Grants t ds) : ∀ d ∈ ds, d.IsDrawn := by
  induction ds generalizing t with
  | nil => exact fun d hd => absurd hd List.not_mem_nil
  | cons d ds ih =>
    refine List.forall_mem_cons.mpr ⟨?_, ih h.2⟩
    match d with
    | ⟨.pick p, n⟩ => exact h.1
    | ⟨.ask .., _⟩ | ⟨.pause _, _⟩ | ⟨.clock, _⟩ | ⟨.log _, _⟩ | ⟨.publish _, _⟩ => trivial

/-- What a worker can tell of the answers does not depend on its picks. -/
theorem grants_unpicked {x y : Option (Pick × Nat)} (h : Terms.seen.Grants ⟨e, x⟩ ds) :
    Terms.seen.Grants ⟨e, y⟩ ds := by
  induction ds generalizing e x y with
  | nil => trivial
  | cons d ds ih =>
    match d with
    | ⟨.ask (.call ..) _, _⟩ | ⟨.ask (.acquire _) _, _⟩ | ⟨.ask (.release _) _, _⟩
    | ⟨.pause _, _⟩ | ⟨.clock, _⟩ | ⟨.pick _, _⟩ | ⟨.log _, _⟩ | ⟨.publish _, _⟩ =>
      exact ⟨h.1, ih h.2⟩

/-- Truthful answers in two parts, where the second part starts from what the calls of the first one
    made of the entries. -/
theorem grants_parts {ds ds' : List Deed} (h : Terms.seen.Grants ⟨e, none⟩ (ds ++ ds')) :
    Terms.seen.Grants ⟨e, none⟩ ds ∧
      Terms.seen.Grants ⟨outcome e (callsOf ds), none⟩ ds' := by
  obtain ⟨h₁, h₂⟩ := (Terms.grants_append _ _ _ _).mp h
  refine ⟨h₁, ?_⟩
  have hentries : (Terms.seen.afterAll ⟨e, none⟩ ds).entries = outcome e (callsOf ds) :=
    entries_sight e ds
  rw [← hentries]
  exact grants_unpicked h₂

/-- A round on a map from which the first `k` elements are missing is completed, and the number it
    drew tells what it cost and what it left. -/
theorem round_told (hstock : p.Stock items) {h : Handle} {k : Nat} {roundEnd : RoundEnd}
    (hplays : Plays (p.round h) ds (.done roundEnd)) (hgrants : Terms.seen.Grants ⟨e, none⟩ ds)
    (hleft : p.Left items k e) (hk : k ≤ items.length) :
    roundEnd = .completed ∧ ∃ r, lastPick? ds = some (removalCount items.length, r) ∧
      r ≤ items.length ∧ p.Left items r (outcome e (callsOf ds)) ∧
      ∀ c, spent c (callsOf ds) =
        ingestCost items.length k c + readCost items.length c + removeCost r c := by
  obtain ⟨rfl, r, hpicked, hbound, hafter⟩ :=
    hplays.result (Terms.grants_truthful hgrants) (round_fair hstock h (t := ⟨e, none⟩) hleft.sane)
  change (sight e ds).picked = _ at hpicked
  change p.Left items r (sight e ds).entries at hafter
  rw [Watched.picked_sight] at hpicked
  rw [entries_sight] at hafter
  obtain ⟨r', hbound', hends, -⟩ := round_goes hstock.elements hplays (isDrawn_of_grants hgrants)
  obtain ⟨-, htracks⟩ | ⟨_, _, hfailed, -⟩ := hends
  · obtain ⟨hspent, hafter'⟩ := htracks.of_none.1.told hstock (told_of_grants hgrants) hleft hk
      (by omega)
    -- The number that the removal went up to is the one that was drawn last.
    obtain rfl : r = r' := hafter.unique hafter' (by omega) (by omega)
    exact ⟨rfl, r, hpicked, by omega, hafter, hspent⟩
  · cases hfailed

/-! ## All rounds -/

variable {σ : Type} {as : List (Act σ)} {ls : List (Lap σ)} {h : Handle}

theorem callsOf_of_unasked (has : ∀ a ∈ as, a.deed.effect.isAsk = false) :
    callsOf (deedsOf as) = [] := by
  refine callsOf_eq_nil fun d hd => ?_
  obtain ⟨a, ha, rfl⟩ := List.mem_map.mp hd
  exact has a ha

/-- What the rounds of a tour cost, by the numbers drawn in them. -/
theorem Tour.spent (hstock : p.Stock items) {run k : Nat} (htour : p.Tour h run as ls)
    (hgrants : Terms.seen.Grants ⟨e, none⟩ (deedsOf as)) (hleft : p.Left items k e)
    (hk : k ≤ items.length) :
    ∃ rs : List Nat, (ls.map fun l => lastPick? (deedsOf l.acts)) =
        rs.map (fun r => some (removalCount items.length, r)) ∧
      ∀ c, spent c (callsOf (deedsOf as)) = roundsCost items.length k rs c := by
  -- The invariant is the number of elements that the last round removed.
  induction htour generalizing k e with
  | done hunasked =>
    refine ⟨[], rfl, fun c => ?_⟩
    rw [callsOf_of_unasked hunasked]
    cases c <;> simp [roundsCost, Partition.spent]
  | @lap run l bs as ls hlead hround _ hunasked _ ih =>
    have hleadCalls : callsOf (deedsOf l.lead) = [] :=
      callsOf_of_unasked (forall_acts hlead (lead_unasked run))
    have hrestCalls : callsOf (deedsOf bs) = [] := callsOf_of_unasked hunasked
    simp only [deedsOf_append] at hgrants ⊢
    obtain ⟨-, hgrants⟩ := grants_parts hgrants
    rw [hleadCalls] at hgrants
    obtain ⟨hgrants₁, hgrants⟩ := grants_parts hgrants
    obtain ⟨-, r, hpicked, hr, hleft', hspent⟩ := round_told hstock hround hgrants₁ hleft hk
    obtain ⟨-, hgrants⟩ := grants_parts hgrants
    rw [hrestCalls] at hgrants
    obtain ⟨rs, hpicks, hrest⟩ := ih hgrants hleft' hr
    refine ⟨r :: rs, ?_, fun c => ?_⟩
    · rw [List.map_cons, List.map_cons, hpicks, hpicked]
    · rw [callsOf_append, callsOf_append, callsOf_append, hleadCalls, hrestCalls, List.nil_append,
        List.nil_append, spent_append, hspent, hrest, roundsCost_cons]

/-- What all rounds of a worker cost that found none of its elements in its map. -/
theorem Worked.spent (hstock : p.Stock items) (hworked : p.Worked h as ls)
    (hgrants : Terms.seen.Grants ⟨e, none⟩ (deedsOf as))
    (habsent : ∀ i ∈ items, e[p.place i]? = none) :
    ∃ rs : List Nat, (ls.map fun l => lastPick? (deedsOf l.acts)) =
        rs.map (fun r => some (removalCount items.length, r)) ∧
      ∀ c, spent c (callsOf (deedsOf as)) = roundsCost items.length items.length rs c := by
  obtain ⟨as₁, as₂, as₃, rfl, haside₁, htour, haside₃⟩ := hworked.parts
  have hnone : ∀ {bs : List (Act σ)}, (∀ b ∈ bs, Aside b.deed.effect) →
      callsOf (deedsOf bs) = [] := fun hbs => callsOf_aside fun d hd => by
    obtain ⟨b, hb, rfl⟩ := List.mem_map.mp hd
    exact hbs b hb
  simp only [deedsOf_append] at hgrants ⊢
  obtain ⟨-, hgrants⟩ := grants_parts hgrants
  rw [hnone haside₁] at hgrants
  -- At first all elements are missing, as if all of them had been removed.
  have hleft : p.Left items items.length e :=
    ⟨fun i hi => habsent i (List.mem_of_mem_take hi), fun i hi => by simp at hi⟩
  obtain ⟨rs, hpicks, hspent⟩ := htour.spent hstock (grants_parts hgrants).1 hleft (Nat.le_refl _)
  refine ⟨rs, hpicks, fun c => ?_⟩
  rw [callsOf_append, callsOf_append, hnone haside₁, hnone haside₃, List.nil_append,
    List.append_nil]
  exact hspent c

end Partition

end GridBench
