/-
  GridBench.Proofs.Run.Fill

  What writing the missing ones of some elements makes of the entries of a map.
  What an element needs is decided by the entries that are there when it is its
  turn (`Partition.need`), and all of them together fold this over the entries
  (`fill`).  If it goes through, everything that was missing has been added and
  nothing else (`fill_completes`); if it stops, the elements before some place
  were gone through (`fill_stops`).

  Filling keeps what is there and writes nothing twice: entries between those at
  the start and those at the end are filled to the same end (`fill_between`).  So
  it can be taken up after it was left off, and repeated (`fill_again`).
-/
import Mathlib.Data.Finset.Card
import GridBench.Run.Partition
import GridBench.Proofs.Store.Memory

namespace GridBench

namespace Partition

variable {p : Partition} {e e₁ e' : Entries} {x : Element} {xs : List Element} {key : String}
variable {n m k : Nat} {trouble : Trouble}

/-! ## What an element needs -/

/-- What is written for an element, if anything. -/
def need (p : Partition) (e : Entries) (x : Element) : Except Trouble (Option (String × Json)) :=
  match p.key x with
  | .error message => .error (.crashed message)
  | .ok key =>
    if e.contains key then .ok none
    else
      match x.value with
      | .error f => .error (.failed f)
      | .ok v => .ok (some (key, v))

/-- The cases of what an element needs. -/
inductive Needs (p : Partition) (e : Entries) (x : Element) :
    Except Trouble (Option (String × Json)) → Prop
  | unnamed {message : String} : p.key x = .error message → Needs p e x (.error (.crashed message))
  | present {key : String} : p.key x = .ok key → key ∈ e → Needs p e x (.ok none)
  | unwritable {key : String} {f : Fault} : p.key x = .ok key → key ∉ e → x.value = .error f →
      Needs p e x (.error (.failed f))
  | absent {key : String} {v : Json} : p.key x = .ok key → key ∉ e → x.value = .ok v →
      Needs p e x (.ok (some (key, v)))

theorem needs_need (p : Partition) (e : Entries) (x : Element) : p.Needs e x (p.need e x) := by
  unfold need
  split
  · rename_i message hkey
    exact .unnamed hkey
  · rename_i key hkey
    split
    · rename_i hmem
      exact .present hkey (Std.ExtTreeMap.contains_iff_mem.mp hmem)
    · rename_i hmem
      have hnot : key ∉ e := fun h => hmem (Std.ExtTreeMap.contains_iff_mem.mpr h)
      split
      · rename_i f hvalue
        exact .unwritable hkey hnot hvalue
      · rename_i v hvalue
        exact .absent hkey hnot hvalue

theorem Needs.eq {a : Except Trouble (Option (String × Json))} (h : p.Needs e x a) :
    p.need e x = a := by
  cases h with
  | unnamed hkey => rw [need, hkey]
  | present hkey hmem =>
    rw [need, hkey]
    exact if_pos (Std.ExtTreeMap.contains_iff_mem.mpr hmem)
  | unwritable hkey hnot hvalue =>
    rw [need, hkey, hvalue]
    exact if_neg fun h => hnot (Std.ExtTreeMap.contains_iff_mem.mp h)
  | absent hkey hnot hvalue =>
    rw [need, hkey, hvalue]
    exact if_neg fun h => hnot (Std.ExtTreeMap.contains_iff_mem.mp h)

/-! ## Filling -/

/-- What elements make of entries, one after the other and starting with the count `n`, if no write
    is rejected; and how it ends. -/
def fill (p : Partition) : List Element → Entries → Nat → Except Trouble Nat × Entries
  | [], e, n => (.ok n, e)
  | x :: xs, e, n =>
    match p.need e x with
    | .error trouble => (.error trouble, e)
    | .ok none => p.fill xs e n
    | .ok (some (key, v)) => p.fill xs (e.insert key v) (n + 1)

theorem fill_of_error (h : p.need e x = .error trouble) :
    p.fill (x :: xs) e n = (.error trouble, e) := by
  rw [fill, h]

theorem fill_of_none (h : p.need e x = .ok none) (xs : List Element) (n : Nat) :
    p.fill (x :: xs) e n = p.fill xs e n := by
  rw [fill, h]

theorem fill_of_some {v : Json} (h : p.need e x = .ok (some (key, v))) (xs : List Element)
    (n : Nat) : p.fill (x :: xs) e n = p.fill xs (e.insert key v) (n + 1) := by
  rw [fill, h]

/-- Some entries are all among others. -/
def Within (e e' : Entries) : Prop :=
  ∀ (key : String) (v : Json), e[key]? = some v → e'[key]? = some v

theorem Within.refl (e : Entries) : Within e e := fun _ _ h => h

theorem Within.trans {e'' : Entries} (h : Within e e') (h' : Within e' e'') : Within e e'' :=
  fun key v hv => h' key v (h key v hv)

theorem Within.mem (h : Within e e') (hmem : key ∈ e) : key ∈ e' := by
  rw [Std.ExtTreeMap.mem_iff_isSome_getElem?, Option.isSome_iff_exists] at hmem ⊢
  obtain ⟨v, hv⟩ := hmem
  exact ⟨v, h key v hv⟩

theorem Within.antisymm (h : Within e e') (h' : Within e' e) : e = e' := by
  refine Std.ExtTreeMap.ext_getElem? fun key => Option.ext fun v => ⟨h key v, h' key v⟩

/-- A write leaves what is under other keys. -/
theorem getElem?_insert_other {key' : String} (hne : key' ≠ key) (v : Json) :
    (e.insert key v)[key']? = e[key']? :=
  MapCall.apply_other (c := .set key v) hne

theorem within_insert (hnot : key ∉ e) (v : Json) : Within e (e.insert key v) := by
  intro key' v' hv'
  have hne : key' ≠ key := by
    rintro rfl
    exact hnot (Std.ExtTreeMap.mem_iff_isSome_getElem?.mpr (hv' ▸ rfl))
  rw [getElem?_insert_other hne]
  exact hv'

/-- A write leads to no more than what is within a bound, if what it writes is. -/
theorem Within.insert {v : Json} (h : Within e e') (hv : e'[key]? = some v) :
    Within (e.insert key v) e' := by
  intro key' v' hv'
  by_cases hkey : key' = key
  · subst hkey
    rw [Std.ExtTreeMap.getElem?_insert_self] at hv'
    exact hv'.symm ▸ hv
  · rw [getElem?_insert_other hkey] at hv'
    exact h key' v' hv'

/-- Filling keeps what is there. -/
theorem within_fill (xs : List Element) (e : Entries) (n : Nat) : Within e (p.fill xs e n).2 := by
  induction xs generalizing e n with
  | nil => exact .refl e
  | cons x xs ih =>
    have hneeds := p.needs_need e x
    generalize hneed : p.need e x = a at hneeds
    cases hneeds with
    | unnamed | unwritable =>
      rw [fill_of_error hneed]
      exact .refl e
    | present =>
      rw [fill_of_none hneed]
      exact ih e n
    | absent _ hnot _ =>
      rw [fill_of_some hneed]
      exact (within_insert hnot _).trans (ih _ _)

/-- Entries between those at the start and those at the end are filled to the same end, and in the
    same way. -/
theorem fill_between (hle : Within e e₁) (hge : Within e₁ (p.fill xs e n).2) :
    (p.fill xs e₁ m).2 = (p.fill xs e n).2 ∧ ∀ trouble,
      (p.fill xs e₁ m).1 = .error trouble ↔ (p.fill xs e n).1 = .error trouble := by
  induction xs generalizing e e₁ n m with
  | nil =>
    exact ⟨hge.antisymm hle, fun _ => iff_of_false (fun h => by cases h) fun h => by cases h⟩
  | cons x xs ih =>
    have hneeds := p.needs_need e x
    generalize hneed : p.need e x = a at hneeds
    cases hneeds with
    | unnamed hkey =>
      rw [fill_of_error hneed] at hge ⊢
      rw [fill_of_error (Needs.unnamed hkey).eq]
      exact ⟨hge.antisymm hle, fun _ => Iff.rfl⟩
    | unwritable hkey hnot hvalue =>
      -- Nothing was written, so that the entries are those of the start.
      rw [fill_of_error hneed] at hge ⊢
      obtain rfl : e = e₁ := hle.antisymm hge
      rw [fill_of_error hneed]
      exact ⟨rfl, fun _ => Iff.rfl⟩
    | present hkey hmem =>
      rw [fill_of_none hneed] at hge ⊢
      rw [fill_of_none (Needs.present hkey (hle.mem hmem)).eq]
      exact ih hle hge
    | @absent key v hkey hnot hvalue =>
      rw [fill_of_some hneed] at hge ⊢
      have hv : (p.fill xs (e.insert key v) (n + 1)).2[key]? = some v :=
        within_fill xs _ _ key v Std.ExtTreeMap.getElem?_insert_self
      by_cases hmem : key ∈ e₁
      -- What is there already can only be what would have been written.
      · rw [fill_of_none (Needs.present hkey hmem).eq]
        obtain ⟨v', hv'⟩ := Option.isSome_iff_exists.mp
          (Std.ExtTreeMap.mem_iff_isSome_getElem?.mp hmem)
        obtain rfl : v' = v := Option.some.inj ((hge key v' hv').symm.trans hv)
        exact ih (hle.insert hv') hge
      · rw [fill_of_some (Needs.absent hkey hmem hvalue).eq]
        refine ih (fun key' v' hv' => ?_) (hge.insert hv)
        by_cases hkey' : key' = key
        · subst hkey'
          rw [Std.ExtTreeMap.getElem?_insert_self] at hv' ⊢
          exact hv'
        · rw [getElem?_insert_other hkey'] at hv' ⊢
          exact hle key' v' hv'

/-- The first element with a key. -/
def first? (p : Partition) (xs : List Element) (key : String) : Option Element :=
  xs.find? fun x => p.key x = .ok key

theorem first?_cons_self (hkey : p.key x = .ok key) : p.first? (x :: xs) key = some x := by
  rw [first?, List.find?_cons, decide_eq_true hkey]

theorem first?_cons_other (hkey : p.key x ≠ .ok key) :
    p.first? (x :: xs) key = p.first? xs key := by
  rw [first?, List.find?_cons, decide_eq_false hkey]
  rfl

/-- The keys of elements, in their order; elements without one are left out. -/
def keys (p : Partition) (xs : List Element) : List String :=
  xs.filterMap fun x => (p.key x).toOption

theorem mem_keys : key ∈ p.keys xs ↔ ∃ x ∈ xs, p.key x = .ok key := by
  have htoOption (x : Element) : (p.key x).toOption = some key ↔ p.key x = .ok key := by
    cases p.key x with
    | error message => exact iff_of_false (fun h => by cases h) fun h => by cases h
    | ok key' => exact ⟨fun h => congrArg _ (Option.some.inj h), fun h => by cases h; rfl⟩
  simp only [keys, List.mem_filterMap, htoOption]

/-- The keys of elements that are not among the entries. -/
def absentKeys (p : Partition) (xs : List Element) (e : Entries) : Finset String :=
  {key ∈ (xs.filterMap fun x => (p.key x).toOption).toFinset | key ∉ e}

theorem mem_absentKeys : key ∈ p.absentKeys xs e ↔ (∃ x ∈ xs, p.key x = .ok key) ∧ key ∉ e := by
  rw [← mem_keys]
  exact Finset.mem_filter.trans (and_congr_left' List.mem_toFinset)

/-- What has become of entries when all elements were gone through and `k` of them written. -/
structure Completes (p : Partition) (xs : List Element) (e e' : Entries) (k : Nat) : Prop where
  kept : ∀ key ∈ e, e'[key]? = e[key]?
  added : ∀ key ∉ e, ∀ x, p.first? xs key = some x → ∃ v, x.value = .ok v ∧ e'[key]? = some v
  others : ∀ key ∉ e, p.first? xs key = none → key ∉ e'
  count : k = (p.absentKeys xs e).card

theorem Completes.cons_present (h : p.Completes xs e e' k) (hkey : p.key x = .ok key)
    (hmem : key ∈ e) : p.Completes (x :: xs) e e' k := by
  have hother {key' : String} (hnot : key' ∉ e) : p.key x ≠ .ok key' := by
    rintro hkey'
    cases hkey.symm.trans hkey'
    exact hnot hmem
  refine ⟨h.kept, fun key' hnot => ?_, fun key' hnot => ?_, ?_⟩
  · rw [first?_cons_other (hother hnot)]
    exact h.added key' hnot
  · rw [first?_cons_other (hother hnot)]
    exact h.others key' hnot
  · rw [h.count]
    congr 1
    ext key'
    rw [mem_absentKeys, mem_absentKeys]
    refine and_congr_left fun hnot => ?_
    rw [List.exists_mem_cons_iff, or_iff_right (hother hnot)]

theorem Completes.cons_absent {v : Json} (h : p.Completes xs (e.insert key v) e' k)
    (hkey : p.key x = .ok key) (hnot : key ∉ e) (hvalue : x.value = .ok v) :
    p.Completes (x :: xs) e e' (k + 1) := by
  have hmem_insert {key' : String} (hne : key' ≠ key) : key' ∈ e.insert key v ↔ key' ∈ e := by
    rw [Std.ExtTreeMap.mem_insert, Std.LawfulEqCmp.compare_eq_iff_eq, or_iff_right hne.symm]
  have hother {key' : String} (hne : key' ≠ key) : p.key x ≠ .ok key' := by
    rintro hkey'
    exact hne (Except.ok.inj (hkey'.symm.trans hkey))
  refine ⟨fun key' hmem => ?_, fun key' hnot' => ?_, fun key' hnot' => ?_, ?_⟩
  · have hne : key' ≠ key := fun h => hnot (h ▸ hmem)
    rw [h.kept key' ((hmem_insert hne).mpr hmem), getElem?_insert_other hne]
  · by_cases hne : key' = key
    · subst hne
      rw [first?_cons_self hkey]
      rintro _ ⟨⟩
      refine ⟨v, hvalue, ?_⟩
      rw [h.kept key' Std.ExtTreeMap.mem_insert_self, Std.ExtTreeMap.getElem?_insert_self]
    · rw [first?_cons_other (hother hne)]
      exact h.added key' fun hmem => hnot' ((hmem_insert hne).mp hmem)
  · by_cases hne : key' = key
    · subst hne
      rw [first?_cons_self hkey]
      rintro ⟨⟩
    · rw [first?_cons_other (hother hne)]
      exact h.others key' fun hmem => hnot' ((hmem_insert hne).mp hmem)
  · have hkeys : p.absentKeys (x :: xs) e = insert key (p.absentKeys xs (e.insert key v)) := by
      ext key'
      rw [Finset.mem_insert, mem_absentKeys, mem_absentKeys, List.exists_mem_cons_iff]
      by_cases hne : key' = key
      · subst hne
        exact iff_of_true ⟨.inl hkey, hnot⟩ (.inl rfl)
      · rw [or_iff_right (hother hne), or_iff_right hne, hmem_insert hne]
    have hnew : key ∉ p.absentKeys xs (e.insert key v) := fun hmem =>
      (mem_absentKeys.mp hmem).2 Std.ExtTreeMap.mem_insert_self
    rw [hkeys, Finset.card_insert_of_notMem hnew, h.count]

/-- Elements that were all gone through. -/
theorem fill_completes (h : p.fill xs e n = (.ok k, e')) :
    ∃ k', k = n + k' ∧ p.Completes xs e e' k' := by
  induction xs generalizing e n with
  | nil =>
    cases h
    refine ⟨0, rfl, fun _ _ => rfl, fun key _ x hx => ?_, fun _ hnot _ => hnot, rfl⟩
    cases hx
  | cons x xs ih =>
    have hneeds := p.needs_need e x
    generalize hneed : p.need e x = a at hneeds
    cases hneeds with
    | unnamed | unwritable =>
      rw [fill_of_error hneed] at h
      cases h
    | present hkey hmem =>
      rw [fill_of_none hneed] at h
      obtain ⟨k', hk', hcompletes⟩ := ih h
      exact ⟨k', hk', hcompletes.cons_present hkey hmem⟩
    | absent hkey hnot hvalue =>
      rw [fill_of_some hneed] at h
      obtain ⟨k', hk', hcompletes⟩ := ih h
      refine ⟨k' + 1, ?_, hcompletes.cons_absent hkey hnot hvalue⟩
      rw [hk', Nat.add_right_comm, Nat.add_assoc]

/-- Elements that were not all gone through: those before the one that is to blame were. -/
theorem fill_stops (h : p.fill xs e n = (.error trouble, e')) :
    ∃ j y k, xs[j]? = some y ∧ p.fill (xs.take j) e n = (.ok k, e') ∧
      p.need e' y = .error trouble := by
  induction xs generalizing e n with
  | nil => cases h
  | cons x xs ih =>
    have hneeds := p.needs_need e x
    generalize hneed : p.need e x = a at hneeds
    cases hneeds with
    | unnamed | unwritable =>
      rw [fill_of_error hneed] at h
      cases h
      exact ⟨0, x, n, rfl, rfl, hneed⟩
    | present =>
      rw [fill_of_none hneed] at h
      obtain ⟨j, y, k, hj, htake, hy⟩ := ih h
      exact ⟨j + 1, y, k, hj, (fill_of_none hneed _ _).trans htake, hy⟩
    | absent =>
      rw [fill_of_some hneed] at h
      obtain ⟨j, y, k, hj, htake, hy⟩ := ih h
      exact ⟨j + 1, y, k, hj, (fill_of_some hneed _ _).trans htake, hy⟩

/-- Elements whose keys and serialised forms can be had are all gone through. -/
theorem exists_fill_ok (hxs : ∀ x ∈ xs, (∃ id, x.id = .ok id) ∧ ∃ v, x.value = .ok v) (e : Entries)
    (n : Nat) : ∃ k, (p.fill xs e n).1 = .ok k := by
  cases hfill : (p.fill xs e n).1 with
  | ok k => exact ⟨k, rfl⟩
  | error trouble =>
    obtain ⟨j, y, k, hj, -, hneed⟩ := fill_stops (Prod.ext hfill rfl)
    obtain ⟨⟨id, hid⟩, v, hv⟩ := hxs y (List.mem_of_getElem? hj)
    have hneeds := p.needs_need (p.fill xs e n).2 y
    rw [hneed] at hneeds
    cases hneeds with
    | unnamed hkey =>
      rw [key, hid] at hkey
      cases hkey
    | unwritable _ _ hvalue => cases hv.symm.trans hvalue

/-- The number of writes shows in the size. -/
theorem fill_size (h : p.fill xs e n = (.ok k, e')) : k + e.size = n + e'.size := by
  induction xs generalizing e n with
  | nil =>
    cases h
    rfl
  | cons x xs ih =>
    have hneeds := p.needs_need e x
    generalize hneed : p.need e x = a at hneeds
    cases hneeds with
    | unnamed | unwritable =>
      rw [fill_of_error hneed] at h
      cases h
    | present =>
      rw [fill_of_none hneed] at h
      exact ih h
    | absent _ hnot _ =>
      rw [fill_of_some hneed] at h
      have hsize := ih h
      rw [Std.ExtTreeMap.size_insert,
        if_neg fun hmem => hnot (Std.ExtTreeMap.contains_iff_mem.mp hmem)] at hsize
      omega

/-- Filling once more writes nothing, and fails where it failed. -/
theorem fill_again (xs : List Element) (e : Entries) (n m : Nat) :
    p.fill xs (p.fill xs e n).2 m =
      ((p.fill xs e n).1.map fun _ => m, (p.fill xs e n).2) := by
  obtain ⟨hsame, htrouble⟩ := fill_between (m := m) (within_fill (p := p) xs e n) (Within.refl _)
  refine Prod.ext ?_ hsame
  cases hr : (p.fill xs e n).1 with
  | error trouble => exact (htrouble trouble).mpr hr
  | ok k =>
    cases hr' : (p.fill xs (p.fill xs e n).2 m).1 with
    | error trouble => cases hr.symm.trans ((htrouble trouble).mp hr')
    | ok k' =>
      have hsize := fill_size (Prod.ext hr' hsame)
      exact congrArg Except.ok (Nat.add_right_cancel hsize)

end Partition

end GridBench
