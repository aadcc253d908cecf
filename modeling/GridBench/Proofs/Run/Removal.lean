/-
  GridBench.Proofs.Run.Removal

  Removing a drawn number of elements from a store in memory, whatever its maps
  hold and whether or not identifiers repeat.  Which calls that takes is told by
  the keys and the entries alone: each key is looked for, and removed if it is
  there (`sweep`).  A removal makes these calls for its elements, as far as they
  have identifiers, and what they do is what they do to the entries (`Does`,
  `remove_sweeps`).  The rest are facts about `sweep`: which keys it takes out,
  what it costs, and that it removes nothing that is not there.  Main statement:
  `removeSome_removes_prefix`.
-/
import GridBench.Proofs.Run.Bill
import GridBench.Proofs.Run.Custody
import GridBench.Proofs.Run.Ingest
import GridBench.Proofs.Run.Readback

namespace GridBench

/-- Whether an element has an identifier. -/
def Element.Named (x : Element) : Prop := ∃ id, x.id = .ok id

namespace Partition

open Attempt (Makes)
open Watched (sampleSettings sampleConfig exists_samplePlan)

variable {p : Partition} {e : Entries} {x : Element} {xs : List Element} {key : String}
variable {ks : List String} {n : Nat} {h : Handle} {w w' w'' : World MemoryStore} {t : Gatherer}
variable {us vs : List MadeCall}

/-! ## Keys of elements -/

theorem key_of_error {message : String} (hid : x.id = .error message) :
    p.key x = .error message := by
  rw [Partition.key, hid]
  rfl

theorem key_of_named (hx : x.Named) : ∃ key, p.key x = .ok key := by
  obtain ⟨id, hid⟩ := hx
  refine ⟨storageKey p.config.client p.number id, ?_⟩
  rw [Partition.key, hid]
  rfl

theorem keys_cons (hkey : p.key x = .ok key) (xs : List Element) :
    p.keys (x :: xs) = key :: p.keys xs := by
  have hkey' : (p.key x).toOption = some key := congrArg Except.toOption hkey
  exact List.filterMap_cons_some (f := fun x => (p.key x).toOption) hkey'

/-- Elements that all have identifiers have one key each. -/
theorem length_keys (hxs : ∀ x ∈ xs, x.Named) : (p.keys xs).length = xs.length := by
  induction xs with
  | nil => rfl
  | cons x xs ih =>
    obtain ⟨hx, hxs⟩ := List.forall_mem_cons.mp hxs
    obtain ⟨key, hkey⟩ := key_of_named (p := p) hx
    rw [keys_cons hkey, List.length_cons, List.length_cons, ih hxs]

/-! ## Sweeping keys out of a map -/

/-- What it takes to remove what is there under some keys from a map that holds `e`: the calls with
    the answers to them. -/
def sweep : List String → Entries → List MadeCall
  | [], _ => []
  | key :: ks, e =>
    if key ∈ e then
      ⟨.containsKey key, .ok true⟩ :: ⟨.remove key, .ok e[key]?⟩ :: sweep ks (e.erase key)
    else ⟨.containsKey key, .ok false⟩ :: sweep ks e

theorem sweep_present (hmem : key ∈ e) (ks : List String) :
    sweep (key :: ks) e =
      ⟨.containsKey key, .ok true⟩ :: ⟨.remove key, .ok e[key]?⟩ :: sweep ks (e.erase key) :=
  if_pos hmem

theorem sweep_absent (hnot : key ∉ e) (ks : List String) :
    sweep (key :: ks) e = ⟨.containsKey key, .ok false⟩ :: sweep ks e := if_neg hnot

theorem getElem?_erase_other {key' : String} (hne : key' ≠ key) :
    (e.erase key)[key']? = e[key']? := MapCall.apply_other (c := .remove key) hne

theorem mem_erase {key' : String} : key' ∈ e.erase key ↔ key' ≠ key ∧ key' ∈ e := by
  rw [Std.ExtTreeMap.mem_erase, ne_eq, Std.LawfulEqCmp.compare_eq_iff_eq, eq_comm]

/-- The keys are taken out, and nothing else. -/
theorem getElem?_outcome_sweep (ks : List String) (e : Entries) (key : String) :
    (outcome e (sweep ks e))[key]? = if key ∈ ks then none else e[key]? := by
  induction ks generalizing e with
  | nil => rfl
  | cons k ks ih =>
    by_cases hmem : k ∈ e
    · rw [sweep_present hmem]
      refine (ih (e.erase k)).trans ?_
      by_cases hkey : key = k
      · rw [hkey, Std.ExtTreeMap.getElem?_erase_self, ite_self, if_pos List.mem_cons_self]
      · rw [getElem?_erase_other hkey]
        simp only [List.mem_cons, hkey, false_or]
    · rw [sweep_absent hmem]
      refine (ih e).trans ?_
      by_cases hkey : key = k
      · rw [hkey, Std.ExtTreeMap.getElem?_eq_none hmem, ite_self, if_pos List.mem_cons_self]
      · simp only [List.mem_cons, hkey, false_or]

/-- The keys among the given ones under which something is there. -/
def presentKeys (ks : List String) (e : Entries) : Finset String := {key ∈ ks.toFinset | key ∈ e}

theorem mem_presentKeys : key ∈ presentKeys ks e ↔ key ∈ ks ∧ key ∈ e :=
  Finset.mem_filter.trans (and_congr_left' List.mem_toFinset)

/-- What is removed once is not removed again, although its key may come again. -/
theorem card_presentKeys_present (hmem : key ∈ e) (ks : List String) :
    (presentKeys (key :: ks) e).card = (presentKeys ks (e.erase key)).card + 1 := by
  have hkeys : presentKeys (key :: ks) e = insert key (presentKeys ks (e.erase key)) := by
    ext key'
    rw [Finset.mem_insert, mem_presentKeys, mem_presentKeys, List.mem_cons, mem_erase]
    by_cases hkey : key' = key
    · exact iff_of_true ⟨.inl hkey, hkey ▸ hmem⟩ (.inl hkey)
    · rw [or_iff_right hkey, or_iff_right hkey, and_iff_right hkey]
  have hnew : key ∉ presentKeys ks (e.erase key) := fun hagain =>
    (mem_erase.mp (mem_presentKeys.mp hagain).2).1 rfl
  rw [hkeys, Finset.card_insert_of_notMem hnew]

theorem presentKeys_absent (hnot : key ∉ e) (ks : List String) :
    presentKeys (key :: ks) e = presentKeys ks e := by
  ext key'
  rw [mem_presentKeys, mem_presentKeys, List.mem_cons]
  refine and_congr_left fun hmem => or_iff_right ?_
  rintro rfl
  exact hnot hmem

/-- What it costs to look for `n` elements and to remove the `k` keys that are there. -/
def sweepCost (n k : Nat) : Counter → Nat
  | .containsKey => n
  | .remove => k
  | _ => 0

/-- Each key costs a look, and a removal the first time it is there. -/
theorem spent_sweep (ks : List String) (e : Entries) (c : Counter) :
    spent c (sweep ks e) = sweepCost ks.length (presentKeys ks e).card c := by
  induction ks generalizing e with
  | nil => cases c <;> rfl
  | cons key ks ih =>
    by_cases hmem : key ∈ e
    · rw [sweep_present hmem, spent_cons, spent_cons, ih, card_presentKeys_present hmem]
      cases c <;> rfl
    · rw [sweep_absent hmem, spent_cons, ih, presentKeys_absent hmem]
      cases c <;> rfl

/-- A key that comes twice is looked for twice, and removed once. -/
example : spent .containsKey (sweep ["a", "b", "a"] ((∅ : Entries).insert "a" .null)) = 3 ∧
    spent .remove (sweep ["a", "b", "a"] ((∅ : Entries).insert "a" .null)) = 1 := by
  decide

/-- Only what is there is removed. -/
theorem present_of_mem_sweep {a : Except Fault (Option Json)}
    (hcall : (⟨.remove key, a⟩ : MadeCall) ∈ sweep ks e) :
    key ∈ ks ∧ ∃ v, e[key]? = some v ∧ a = .ok (some v) := by
  induction ks generalizing e with
  | nil => cases hcall
  | cons k ks ih =>
    by_cases hmem : k ∈ e
    · rw [sweep_present hmem] at hcall
      rcases List.mem_cons.mp hcall with hlook | hcall
      · cases hlook
      · rcases List.mem_cons.mp hcall with hremove | hlater
        · cases hremove
          obtain ⟨v, hv⟩ := Option.isSome_iff_exists.mp
            (Std.ExtTreeMap.mem_iff_isSome_getElem?.mp hmem)
          exact ⟨List.mem_cons_self, v, hv, congrArg _ hv⟩
        · obtain ⟨hkey, v, hv, ha⟩ := ih hlater
          have hne : key ≠ k := by
            rintro rfl
            rw [Std.ExtTreeMap.getElem?_erase_self] at hv
            cases hv
          rw [getElem?_erase_other hne] at hv
          exact ⟨List.mem_cons_of_mem _ hkey, v, hv, ha⟩
    · rw [sweep_absent hmem] at hcall
      rcases List.mem_cons.mp hcall with hlook | hlater
      · cases hlook
      · obtain ⟨hkey, hthere⟩ := ih hlater
        exact ⟨List.mem_cons_of_mem _ hkey, hthere⟩

/-! ## What calls do to a store -/

/-- From `w` to `w'` nothing was done but the calls `xs`, none of which was set to misbehave. -/
structure Does (h : Handle) (w w' : World MemoryStore) (xs : List MadeCall) : Prop
    extends Kept h w w' where
  entries : w'.grid.entries h.map = outcome (w.grid.entries h.map) xs
  unfaulted : w'.grid.faults = w.grid.faults
  counted : ∀ c, w'.grid.calls.shown c = w.grid.calls.shown c + spent c xs

theorem Does.refl (h : Handle) (w : World MemoryStore) : Does h w w [] :=
  ⟨.refl h w, rfl, rfl, fun _ => rfl⟩

theorem Does.trans (h₁ : Does h w w' us) (h₂ : Does h w' w'' vs) : Does h w w'' (us ++ vs) where
  toKept := h₁.toKept.trans h₂.toKept
  entries := by rw [outcome_append, ← h₁.entries, h₂.entries]
  unfaulted := h₂.unfaulted.trans h₁.unfaulted
  counted c := by rw [h₂.counted, h₁.counted, spent_append, Nat.add_assoc]

/-- A call that is carried out, with the answer that the entries give to it. -/
theorem makes_answered (hrun : w.cancelled = false) {c : MapCall}
    (hcall : w.grid.Answered h c (w.grid.call h c)) (t : Gatherer) :
    ∃ w', Makes MemoryStore.grid (Attempt.call h c) w t
        [⟨c, .ok (c.apply (w.grid.entries h.map)).1⟩] (.ok (c.apply (w.grid.entries h.map)).1) w' ∧
      Does h w w' [⟨c, .ok (c.apply (w.grid.entries h.map)).1⟩] := by
  have hmakes := Attempt.makes_call (t := t) hrun h c
  rw [hcall.answer] at hmakes
  refine ⟨_, hmakes, ⟨rfl, rfl, rfl, fun map hmap => ?_, hcall.issued, hcall.released,
    w.grid.faults.failSets, Nat.le_refl _, hcall.faults⟩, ?_, hcall.faults, fun c' => ?_⟩
  · exact (hcall.entries map).trans (if_neg hmap.symm)
  · exact (hcall.entries h.map).trans (if_pos rfl)
  · show (w.grid.call h c).2.calls.shown c' = _
    rw [MemoryStore.calls_call, CallCounts.shown_note, spent_cons]
    exact congrArg _ (Nat.zero_add _).symm

/-- Looking for a key. -/
theorem makes_look (hrun : w.cancelled = false) (hlive : w.grid.isReleased h = false)
    (key : String) (t : Gatherer) :
    ∃ w', Makes MemoryStore.grid (Attempt.call h (.containsKey key)) w t
        [⟨.containsKey key, .ok ((w.grid.entries h.map).contains key)⟩]
        (.ok ((w.grid.entries h.map).contains key)) w' ∧
      Does h w w' [⟨.containsKey key, .ok ((w.grid.entries h.map).contains key)⟩] :=
  makes_answered hrun (MemoryStore.call_spared hlive _ (fun _ hc => by cases hc)
    fun _ _ hc => by cases hc) t

/-- Removing a key. -/
theorem makes_removal (hrun : w.cancelled = false) (hlive : w.grid.isReleased h = false)
    (key : String) (t : Gatherer) :
    ∃ w', Makes MemoryStore.grid (Attempt.call h (.remove key)) w t
        [⟨.remove key, .ok (w.grid.entries h.map)[key]?⟩] (.ok (w.grid.entries h.map)[key]?) w' ∧
      Does h w w' [⟨.remove key, .ok (w.grid.entries h.map)[key]?⟩] :=
  makes_answered hrun (MemoryStore.call_spared hlive _ (fun _ hc => by cases hc)
    fun _ _ hc => by cases hc) t

/-! ## One element after the other -/

/-- How far removing the elements `xs` gets, and how it ends if it has removed `n` of them. -/
inductive GetsTo (xs : List Element) (n : Nat) : Nat → Except Trouble Nat → Prop
  | all : (∀ x ∈ xs, x.Named) → GetsTo xs n xs.length (.ok n)
  | crashed {j : Nat} {y : Element} {message : String} : xs[j]? = some y →
      y.id = .error message → (∀ x ∈ xs.take j, x.Named) →
      GetsTo xs n j (.error (.crashed message))

theorem GetsTo.cons {j : Nat} {r : Except Trouble Nat} (hx : x.Named) (hxs : GetsTo xs n j r) :
    GetsTo (x :: xs) n (j + 1) r := by
  cases hxs with
  | all hxs => exact .all (List.forall_mem_cons.mpr ⟨hx, hxs⟩)
  | crashed hy hid hbefore =>
    exact .crashed (j := _ + 1) hy hid (List.forall_mem_cons.mpr ⟨hx, hbefore⟩)

/-- Removing elements sweeps the keys of those it gets to out of the map. -/
theorem remove_sweeps (hrun : w.cancelled = false) (hlive : w.grid.isReleased h = false)
    (xs : List Element) (n : Nat) :
    ∃ j r w', Makes MemoryStore.grid (p.remove h xs n) w t
        (sweep (p.keys (xs.take j)) (w.grid.entries h.map)) r w' ∧
      Does h w w' (sweep (p.keys (xs.take j)) (w.grid.entries h.map)) ∧
      GetsTo xs (n + (presentKeys (p.keys (xs.take j)) (w.grid.entries h.map)).card) j r := by
  induction xs generalizing w n with
  | nil =>
    refine ⟨0, .ok n, _, ⟨rfl, rfl⟩, ?_, .all fun _ hx => absurd hx List.not_mem_nil⟩
    exact ⟨⟨rfl, rfl, rfl, fun _ _ => rfl, rfl, rfl, _, Nat.le_refl _, rfl⟩, rfl, rfl, fun _ => rfl⟩
  | cons x xs ih =>
    have hkeyed := Attempt.makes_keyOf (g := MemoryStore.grid) (w := w) (t := t) p x
    cases hid : x.id with
    | error message =>
      rw [key_of_error hid] at hkeyed
      exact ⟨0, _, w, hkeyed.bind_error, .refl h w,
        .crashed rfl hid fun _ hx => absurd hx List.not_mem_nil⟩
    | ok id =>
      have hnamed : x.Named := ⟨id, hid⟩
      obtain ⟨key, hkey⟩ := key_of_named (p := p) hnamed
      rw [hkey] at hkeyed
      obtain ⟨w₁, hlook, hlooked⟩ := makes_look hrun hlive key t
      have hsame : w₁.grid.entries h.map = w.grid.entries h.map := hlooked.entries
      have hrun₁ := hlooked.cancelled.trans hrun
      have hlive₁ := hlooked.live hlive
      -- What was removed before may be the key that is looked for now, so each step sees the
      -- entries that the steps before it left.
      by_cases hmem : key ∈ w.grid.entries h.map
      · obtain ⟨w₂, hremove, hremoved⟩ := makes_removal hrun₁ hlive₁ key t
        obtain ⟨j, r, w', hmakes, hdoes, hgets⟩ :=
          ih (hremoved.cancelled.trans hrun₁) (hremoved.live hlive₁) (n + 1)
        have herased : w₂.grid.entries h.map = (w.grid.entries h.map).erase key := by
          rw [hremoved.entries, hsame]
          rfl
        rw [Std.ExtTreeMap.contains_iff_mem.mpr hmem] at hlook hlooked
        rw [hsame] at hremove hremoved
        rw [herased] at hmakes hdoes hgets
        refine ⟨j + 1, r, w', ?_⟩
        rw [List.take_succ_cons, keys_cons hkey, sweep_present hmem, card_presentKeys_present hmem,
          Nat.add_comm _ 1, ← Nat.add_assoc]
        exact ⟨hkeyed.bind_ok (hlook.bind_ok (hremove.bind_ok hmakes)),
          hlooked.trans (hremoved.trans hdoes), hgets.cons hnamed⟩
      · obtain ⟨j, r, w', hmakes, hdoes, hgets⟩ := ih hrun₁ hlive₁ n
        rw [Bool.eq_false_iff.mpr (mt Std.ExtTreeMap.contains_iff_mem.mp hmem)] at hlook hlooked
        rw [hsame] at hmakes hdoes hgets
        refine ⟨j + 1, r, w', ?_⟩
        rw [List.take_succ_cons, keys_cons hkey, sweep_absent hmem, presentKeys_absent hmem]
        exact ⟨hkeyed.bind_ok (hlook.bind_ok hmakes), hlooked.trans hdoes, hgets.cons hnamed⟩

/-! ## A drawn number of elements -/

/-- From `w` to `w'` the elements `xs` were removed, by the calls `calls`, and nothing else was
    done. -/
structure Removes (p : Partition) (h : Handle) (w w' : World MemoryStore) (calls : List MadeCall)
    (xs : List Element) : Prop extends Does h w w' calls where
  gone : ∀ key ∈ p.keys xs, key ∉ w'.grid.entries h.map
  left : ∀ key ∉ p.keys xs, (w'.grid.entries h.map)[key]? = (w.grid.entries h.map)[key]?
  cost : ∀ c, spent c calls =
    sweepCost xs.length (presentKeys (p.keys xs) (w.grid.entries h.map)).card c
  /-- Each removal answered with what had been there. -/
  aimed : ∀ key a, (⟨.remove key, a⟩ : MadeCall) ∈ calls →
    key ∈ p.keys xs ∧ ∃ v, (w.grid.entries h.map)[key]? = some v ∧ a = .ok (some v)

theorem Does.removes (hdoes : Does h w w' (sweep (p.keys xs) (w.grid.entries h.map)))
    (hxs : ∀ x ∈ xs, x.Named) :
    p.Removes h w w' (sweep (p.keys xs) (w.grid.entries h.map)) xs := by
  have hentry (key : String) : (w'.grid.entries h.map)[key]? =
      if key ∈ p.keys xs then none else (w.grid.entries h.map)[key]? := by
    rw [hdoes.entries, getElem?_outcome_sweep]
  refine ⟨hdoes, fun key hkey => ?_, fun key hkey => ?_, fun c => ?_,
    fun _ _ => present_of_mem_sweep⟩
  · rw [Std.ExtTreeMap.mem_iff_isSome_getElem?, hentry, if_pos hkey]
    exact Bool.false_ne_true
  · rw [hentry, if_neg hkey]
  · rw [spent_sweep, length_keys hxs]

/-- A removal drew the number `r`, made the calls `calls`, ended with `res` and led from `w` to
    `w'`. -/
structure Prunes (p : Partition) (h : Handle) (t : Gatherer) (w w' : World MemoryStore) (r : Nat)
    (calls : List MadeCall) (res : Except Trouble Nat) : Prop where
  drawn : (removalCount p.config.elements.length).take w.draws = (r, w'.draws)
  proper : p.config.elements = [] ∧ r = 0 ∨ r < p.config.elements.length
  makes : Makes MemoryStore.grid (p.removeSome h) w t calls res w'
  completes : (∀ x ∈ p.config.elements.take r, x.Named) →
    res = .ok (presentKeys (p.keys (p.config.elements.take r)) (w.grid.entries h.map)).card ∧
      spent .containsKey calls = r ∧
      p.Removes h { w with draws := w'.draws } w' calls (p.config.elements.take r)
  /-- If an identifier is missing, the elements before the first one without were removed. -/
  crashes : (¬ ∀ x ∈ p.config.elements.take r, x.Named) →
    ∃ j y message, j < r ∧ p.config.elements[j]? = some y ∧ y.id = .error message ∧
      (∀ x ∈ p.config.elements.take j, x.Named) ∧ res = .error (.crashed message) ∧
      p.Removes h { w with draws := w'.draws } w' calls (p.config.elements.take j)
  last : p.config.elements.Pairwise Element.Differs →
    ∀ x, p.config.elements.getLast? = some x → ∀ key, p.key x = .ok key →
      (w'.grid.entries h.map)[key]? = (w.grid.entries h.map)[key]?

/-- The number drawn is below the number of elements, unless there are none. -/
theorem proper_of_drawn {xs : List Element} {d d' : Draws} {r : Nat}
    (hdrawn : (removalCount xs.length).take d = (r, d')) : xs = [] ∧ r = 0 ∨ r < xs.length := by
  have hbelow : r = 0 ∨ r < xs.length := by
    have hbound := take_removalCount xs.length d
    rw [hdrawn] at hbound
    exact hbound
  cases xs with
  | nil => exact .inl ⟨rfl, hbelow.resolve_right (Nat.not_lt_zero r)⟩
  | cons x xs =>
    refine .inr (hbelow.elim (fun hzero => ?_) id)
    rw [hzero]
    exact Nat.succ_pos _

/-- Elements before the last one have other keys than it. -/
theorem not_mem_keys_take {j : Nat} (hids : p.config.elements.Pairwise Element.Differs)
    (hlast : p.config.elements.getLast? = some x) (hkey : p.key x = .ok key)
    (hj : p.config.elements = [] ∧ j = 0 ∨ j < p.config.elements.length) :
    key ∉ p.keys (p.config.elements.take j) := by
  intro hmem
  obtain ⟨y, hy, hykey⟩ := mem_keys.mp hmem
  have hbefore : y ∈ p.config.elements.dropLast := by
    rw [List.dropLast_eq_take]
    exact (List.take_prefix_take_left (by omega)).subset hy
  exact key_ne_of_mem_dropLast hids hlast hkey hbefore hykey

/-- A removal draws a number and removes so many elements. -/
theorem makes_removeSome {r : Nat} {draws : Draws} {res : Except Trouble Nat}
    (hdrawn : (removalCount p.config.elements.length).take w.draws = (r, draws))
    (hmakes : Makes MemoryStore.grid (p.remove h (p.config.elements.take r) 0)
      { w with draws := draws } t us res w') :
    Makes MemoryStore.grid (p.removeSome h) w t us res w' := by
  obtain ⟨hr, hdraws⟩ := Prod.ext_iff.mp hdrawn
  subst hr hdraws
  exact ⟨hmakes.alone, hmakes.calls⟩

/-- Removing some of all elements, whatever they are, whatever the map holds and whatever is drawn,
    with a handle that is not released and without a cancellation.  The number drawn is below that
    of the elements, unless there are none.  If the elements up to it have identifiers, their keys
    are gone from the map, and every other entry is as it was.  The result is the number of these
    keys, each counted once, under which something was there; so often something was removed, always
    from under a key that was there, and each element was looked for once.  If an identifier is
    missing, the worker crashes, and the same holds of the elements before it.  Either way the last
    element keeps its entry if no identifier comes twice. -/
theorem removeSome_removes_prefix (hrun : w.cancelled = false)
    (hlive : w.grid.isReleased h = false) :
    ∃ w' r calls res, p.Prunes h t w w' r calls res := by
  obtain ⟨r, draws, hdrawn⟩ : ∃ r draws,
      (removalCount p.config.elements.length).take w.draws = (r, draws) := ⟨_, _, rfl⟩
  have hproper := proper_of_drawn hdrawn
  obtain ⟨j, res, w', hmakes, hdoes, hgets⟩ := p.remove_sweeps (t := t)
    (w := { w with draws := draws }) (h := h) hrun hlive (p.config.elements.take r) 0
  have hdraws : w'.draws = draws := hdoes.draws
  subst hdraws
  have hmakes := makes_removeSome hdrawn hmakes
  have hr : (p.config.elements.take r).length = r := by
    rw [List.length_take]
    omega
  cases hgets with
  | all hnamed =>
    rw [List.take_length] at hdoes
    rw [List.take_length, Nat.zero_add] at hmakes
    have hremoves := hdoes.removes hnamed
    exact ⟨w', r, _, _, hdrawn, hproper, hmakes,
      fun _ => ⟨rfl, (hremoves.cost .containsKey).trans hr, hremoves⟩, absurd hnamed,
      fun hids x hx key hkey => hremoves.left key (not_mem_keys_take hids hx hkey hproper)⟩
  | @crashed _ y message hy hid hbefore =>
    have hunnamed : ¬ ∀ x ∈ p.config.elements.take r, x.Named := fun hnamed => by
      obtain ⟨id, hok⟩ := hnamed y (List.mem_of_getElem? hy)
      cases hid.symm.trans hok
    obtain ⟨hj, -⟩ := List.getElem?_eq_some_iff.mp hy
    obtain ⟨hjr, hjlen⟩ := Nat.lt_min.mp (hj.trans_eq List.length_take)
    rw [List.getElem?_take_of_lt hjr] at hy
    rw [List.take_take, Nat.min_eq_left hjr.le] at hmakes hdoes hbefore
    have hremoves := hdoes.removes hbefore
    exact ⟨w', r, _, _, hdrawn, hproper, hmakes, fun hnamed => absurd hnamed hunnamed,
      fun _ => ⟨j, y, message, hjr, hy, hid, hbefore, rfl, hremoves⟩,
      fun hids x hx key hkey => hremoves.left key (not_mem_keys_take hids hx hkey (.inr hjlen))⟩

/-- Of two elements the first one is drawn, and the map holds it. -/
theorem removeSome_removes_prefix_sample :
    ∃ plan w' calls, sampleSettings.resolve "map-tests.load" "load" = .ok plan ∧
      Makes MemoryStore.grid (removeSome ⟨sampleConfig plan, 0⟩ ⟨0, "m"⟩)
        { grid := halfStore, draws := .cyclic [1] } {} calls (.ok 1) w' ∧
      "client-0-0" ∉ w'.grid.entries "m" ∧ w'.grid.calls.remove = 1 := by
  obtain ⟨plan, hplan⟩ := exists_samplePlan
  let p : Partition := ⟨sampleConfig plan, 0⟩
  obtain ⟨w', r, calls, res, hprunes⟩ := removeSome_removes_prefix (p := p) (h := ⟨0, "m"⟩)
    (w := { grid := halfStore, draws := .cyclic [1] }) (t := {}) rfl rfl
  obtain rfl : 1 = r := (Prod.ext_iff.mp hprunes.drawn).1
  have hkeys : p.keys (p.config.elements.take 1) = ["client-0-0"] := by
    show [storageKey ⟨"client"⟩ 0 "0"] = _
    decide
  have hmem : "client-0-0" ∈ halfStore.entries "m" := by
    rw [Std.ExtTreeMap.mem_iff_isSome_getElem?, getElem?_halfStore, if_pos rfl]
    rfl
  have hcard : (presentKeys ["client-0-0"] (halfStore.entries "m")).card = 1 :=
    card_presentKeys_present hmem []
  obtain ⟨hres, -, hremoves⟩ := hprunes.completes fun x hx => by
    obtain rfl := List.mem_singleton.mp hx
    exact ⟨"0", rfl⟩
  rw [hkeys, hcard] at hres
  have hcalls := hremoves.counted .remove
  rw [hremoves.cost, hkeys, hcard] at hcalls
  subst hres
  exact ⟨plan, w', calls, hplan, hprunes.makes,
    hremoves.gone _ (hkeys ▸ List.mem_singleton_self _), hcalls⟩

end Partition

end GridBench
