/-
  GridBench.Proofs.Run.Ingest

  Ingesting elements into a store in memory, of which some writes may be
  rejected.  A run either does what filling the entries does, or it ends at the
  first write, which is rejected (`ingest_outcome`); nothing but the entries of
  the one map is touched (`Kept`).  What filling has for results carries over:
  a failure leaves the work of the elements before it, and the ingestion can be
  taken up again and repeated.  Main statement:
  `ingestAll_completes_and_resumes`.
-/
import GridBench.Proofs.Run.Ending
import GridBench.Proofs.Run.Fill
import GridBench.Proofs.Run.Solo
import GridBench.Proofs.Store.Rations

namespace GridBench

namespace Partition

open Watched (sampleSettings sampleItems sampleConfig unwritableConfig exists_samplePlan)

variable {p : Partition} {e e' : Entries} {x : Element} {xs : List Element} {key : String}
variable {n k : Nat} {trouble : Trouble} {r : Except Trouble Nat}
variable {h : Handle} {s : MemoryStore} {w w' w'' : World MemoryStore} {t : Gatherer}

/-! ## What is kept -/

/-- What writing elements leaves of a world with a store in memory, entries of the map, counters and
    log records apart. -/
structure Kept (h : Handle) (w w' : World MemoryStore) : Prop where
  clock : w'.clock = w.clock
  cancelled : w'.cancelled = w.cancelled
  draws : w'.draws = w.draws
  others : ∀ map, map ≠ h.map → w'.grid.entries map = w.grid.entries map
  issued : w'.grid.issued = w.grid.issued
  released : w'.grid.released = w.grid.released
  /-- Rejections may be used up, and nothing else. -/
  faults : ∃ f ≤ w.grid.faults.failSets, w'.grid.faults = { w.grid.faults with failSets := f }

theorem Kept.refl (h : Handle) (w : World MemoryStore) : Kept h w w :=
  ⟨rfl, rfl, rfl, fun _ _ => rfl, rfl, rfl, w.grid.faults.failSets, Nat.le_refl _, rfl⟩

theorem Kept.trans (h₁ : Kept h w w') (h₂ : Kept h w' w'') : Kept h w w'' where
  clock := h₂.clock.trans h₁.clock
  cancelled := h₂.cancelled.trans h₁.cancelled
  draws := h₂.draws.trans h₁.draws
  others map hmap := (h₂.others map hmap).trans (h₁.others map hmap)
  issued := h₂.issued.trans h₁.issued
  released := h₂.released.trans h₁.released
  faults := by
    obtain ⟨f₁, hle₁, hf₁⟩ := h₁.faults
    obtain ⟨f₂, hle₂, hf₂⟩ := h₂.faults
    rw [hf₁] at hle₂ hf₂
    exact ⟨f₂, hle₂.trans hle₁, hf₂⟩

theorem Kept.live (hkept : Kept h w w') (hlive : w.grid.isReleased h = false) :
    w'.grid.isReleased h = false := by
  rw [MemoryStore.isReleased, hkept.released]
  exact hlive

/-- The world after a look whether a key is there. -/
def looked (w : World MemoryStore) (key : String) : World MemoryStore :=
  { w with grid := { w.grid with calls := w.grid.calls.note (.containsKey key) } }

theorem kept_looked (h : Handle) (w : World MemoryStore) (key : String) : Kept h w (looked w key) :=
  ⟨rfl, rfl, rfl, fun _ _ => rfl, rfl, rfl, w.grid.faults.failSets, Nat.le_refl _, rfl⟩

/-! ## One element -/

/-- Whether something is there. -/
theorem call_containsKey (hlive : s.isReleased h = false) (key : String) :
    s.call h (.containsKey key) = (.ok ((s.entries h.map).contains key),
      { s with calls := s.calls.note (.containsKey key) }) := by
  have hlive' : ({ s with calls := s.calls.note (.containsKey key) } : MemoryStore).isReleased h =
    false := hlive
  simp only [MemoryStore.call, if_neg (Bool.eq_false_iff.mp hlive')]
  rfl

/-- Looking whether an element is there. -/
theorem alone_look (hrun : w.cancelled = false) (hlive : w.grid.isReleased h = false)
    (hkey : p.key x = .ok key) (f : String → Bool → Attempt Nat) :
    (p.keyOf x >>= fun key => Attempt.call h (.containsKey key) >>= f key).run.alone
        MemoryStore.grid w t =
      (f key ((w.grid.entries h.map).contains key)).run.alone MemoryStore.grid (looked w key) t := by
  have hkeyed := Attempt.alone_keyOf (g := MemoryStore.grid) (w := w) (t := t) p x
  rw [hkey] at hkeyed
  have hlook := Attempt.alone_call (t := t) hrun h (.containsKey key)
  rw [call_containsKey hlive] at hlook
  exact (Attempt.alone_bind_ok _ hkeyed).trans (Attempt.alone_bind_ok _ hlook)

/-- Writing an element. -/
theorem alone_write (hrun : w.cancelled = false) (hlive : w.grid.isReleased h = false)
    (key : String) (v : Json) :
    ∃ r w', (Attempt.call h (.set key v)).run.alone MemoryStore.grid w t = (r, w', t) ∧
      Kept h w w' ∧
      (0 < w.grid.faults.failSets ∧ r = .error (.failed (MemoryStore.rejection h key)) ∧
          w'.grid.entries h.map = w.grid.entries h.map ∨
        w.grid.faults.failSets = 0 ∧ r = .ok () ∧
          w'.grid.entries h.map = (w.grid.entries h.map).insert key v) := by
  refine ⟨_, _, Attempt.alone_call hrun h (.set key v), ?_⟩
  rw [MemoryStore.call_set hlive]
  by_cases hleft : 0 < w.grid.faults.failSets
  · rw [if_pos hleft]
    refine ⟨⟨rfl, rfl, rfl, fun _ _ => rfl, rfl, rfl, _, Nat.sub_le _ 1, rfl⟩, .inl ⟨hleft, rfl, rfl⟩⟩
  · rw [if_neg hleft]
    refine ⟨⟨rfl, rfl, rfl, fun map hmap => ?_, rfl, rfl, _, Nat.le_refl _, rfl⟩,
      .inr ⟨Nat.eq_zero_of_not_pos hleft, rfl, ?_⟩⟩
    · exact (MemoryStore.entries_withEntries _ _ _ _).trans (if_neg (Ne.symm hmap))
    · exact (MemoryStore.entries_withEntries _ _ _ _).trans (if_pos rfl)

/-! ## One element after the other -/

/-- How writing elements into a map that holds `e` ends, and what the map holds then, if `f`
    rejections are left. -/
inductive Outcome (p : Partition) (h : Handle) (f : Nat) (xs : List Element) (e : Entries) (n : Nat) :
    Except Trouble Nat → Entries → Prop
  | filled : Outcome p h f xs e n (p.fill xs e n).1 (p.fill xs e n).2
  /-- The first write is rejected. -/
  | rejected {j : Nat} {y : Element} {key : String} {v : Json} : 0 < f → xs[j]? = some y →
      p.fill (xs.take j) e n = (.ok n, e) → p.need e y = .ok (some (key, v)) →
      Outcome p h f xs e n (.error (.failed (MemoryStore.rejection h key))) e

/-- An element that ends the ingestion before anything is written for it. -/
theorem Outcome.cons_error {f : Nat} (hneed : p.need e x = .error trouble) :
    p.Outcome h f (x :: xs) e n (.error trouble) e := by
  have hfilled : p.Outcome h f (x :: xs) e n _ _ := .filled
  rw [fill_of_error hneed] at hfilled
  exact hfilled

/-- An element for which nothing is written. -/
theorem Outcome.cons_none {f : Nat} (hneed : p.need e x = .ok none)
    (hxs : p.Outcome h f xs e n r e') : p.Outcome h f (x :: xs) e n r e' := by
  cases hxs with
  | filled =>
    rw [← fill_of_none hneed xs n]
    exact .filled
  | rejected hf hj htake hy =>
    exact .rejected hf (j := _ + 1) hj ((fill_of_none hneed _ _).trans htake) hy

/-- An element that is written. -/
theorem Outcome.cons_some {v : Json} (hneed : p.need e x = .ok (some (key, v)))
    (hxs : p.Outcome h 0 xs (e.insert key v) (n + 1) r e') : p.Outcome h 0 (x :: xs) e n r e' := by
  cases hxs with
  | filled =>
    rw [← fill_of_some hneed xs n]
    exact .filled
  | rejected hf => exact absurd hf (Nat.lt_irrefl 0)

/-- Whatever the map holds and however many rejections are left, the action ends in one of these
    ways. -/
theorem ingest_outcome (hrun : w.cancelled = false) (hlive : w.grid.isReleased h = false)
    (xs : List Element) (n : Nat) :
    ∃ r w', (p.ingest h xs n).run.alone MemoryStore.grid w t = (r, w', t) ∧ Kept h w w' ∧
      p.Outcome h w.grid.faults.failSets xs (w.grid.entries h.map) n r (w'.grid.entries h.map) := by
  induction xs generalizing w n with
  | nil =>
    exact ⟨_, _, rfl, ⟨rfl, rfl, rfl, fun _ _ => rfl, rfl, rfl, _, Nat.le_refl _, rfl⟩, .filled⟩
  | cons x xs ih =>
    have hneeds := p.needs_need (w.grid.entries h.map) x
    generalize hneed : p.need (w.grid.entries h.map) x = a at hneeds
    rw [ingest]
    cases hneeds with
    | unnamed hkey =>
      have hkeyed := Attempt.alone_keyOf (g := MemoryStore.grid) (w := w) (t := t) p x
      rw [hkey] at hkeyed
      exact ⟨_, w, Attempt.alone_bind_error _ hkeyed, .refl h w, .cons_error hneed⟩
    | present hkey hmem =>
      rw [alone_look hrun hlive hkey, if_pos (Std.ExtTreeMap.contains_iff_mem.mpr hmem)]
      obtain ⟨r, w', halone, hkept, hxs⟩ := ih (w := looked w _) hrun hlive n
      exact ⟨r, w', halone, (kept_looked h w _).trans hkept, hxs.cons_none hneed⟩
    | @unwritable key f hkey hnot hvalue =>
      rw [alone_look hrun hlive hkey,
        if_neg fun hmem => hnot (Std.ExtTreeMap.contains_iff_mem.mp hmem), hvalue]
      exact ⟨_, _, Attempt.alone_bind_error _ (Attempt.alone_ofExcept _), kept_looked h w key,
        .cons_error hneed⟩
    | @absent key v hkey hnot hvalue =>
      rw [alone_look hrun hlive hkey,
        if_neg fun hmem => hnot (Std.ExtTreeMap.contains_iff_mem.mp hmem), hvalue,
        Attempt.alone_bind_ok _ (Attempt.alone_ofExcept _)]
      obtain ⟨r, w', hwrite, hkept, hwritten⟩ :=
        alone_write (w := looked w key) (t := t) hrun hlive key v
      have hkept' := (kept_looked h w key).trans hkept
      -- Either this write is rejected, or no rejections are left for the ones to come.
      rcases hwritten with ⟨hleft, rfl, hsame⟩ | ⟨hnone, rfl, hinsert⟩
      · refine ⟨_, w', Attempt.alone_bind_error _ hwrite, hkept', ?_⟩
        rw [hsame]
        exact .rejected (j := 0) hleft rfl rfl hneed
      · have hnone' : w.grid.faults.failSets = 0 := hnone
        obtain ⟨f, hle, hf⟩ := hkept'.faults
        obtain ⟨r, w'', halone, hkept'', hxs⟩ :=
          ih (hkept'.cancelled.trans hrun) (hkept'.live hlive) (n + 1)
        refine ⟨r, w'', (Attempt.alone_bind_ok _ hwrite).trans halone, hkept'.trans hkept'', ?_⟩
        have hinsert' : w'.grid.entries h.map = (w.grid.entries h.map).insert key v := hinsert
        rw [hinsert', hf] at hxs
        obtain rfl : f = 0 := by omega
        rw [hnone']
        exact hxs.cons_some hneed

/-- Whatever happens, the map holds something between what it held and what filling makes of it. -/
theorem Outcome.between {f : Nat} (houtcome : p.Outcome h f xs e n r e') :
    Within e e' ∧ Within e' (p.fill xs e n).2 := by
  cases houtcome with
  | filled => exact ⟨within_fill xs e n, .refl _⟩
  | rejected => exact ⟨.refl e, within_fill xs e n⟩

theorem Outcome.eq_fill {f : Nat} (houtcome : p.Outcome h f xs e n (.ok k) e') :
    p.fill xs e n = (.ok k, e') := by
  generalize hr : (Except.ok k : Except Trouble Nat) = r at houtcome
  cases houtcome with
  | filled => rfl
  | rejected => cases hr

/-- Why an ingestion ended at an element whose turn it was when the map held `e`. -/
inductive Blames (p : Partition) (h : Handle) (e : Entries) (y : Element) : Trouble → Prop
  | needs {trouble : Trouble} : p.Needs e y (.error trouble) → Blames p h e y trouble
  | rejected {key : String} {v : Json} : p.Needs e y (.ok (some (key, v))) →
      Blames p h e y (.failed (MemoryStore.rejection h key))

theorem Outcome.stops {f : Nat} (houtcome : p.Outcome h f xs e n (.error trouble) e') :
    ∃ j y k, xs[j]? = some y ∧ p.fill (xs.take j) e n = (.ok k, e') ∧ p.Blames h e' y trouble := by
  generalize hr : (Except.error trouble : Except Trouble Nat) = r at houtcome
  cases houtcome with
  | filled =>
    obtain ⟨j, y, k, hj, htake, hneed⟩ := fill_stops (Prod.ext hr.symm rfl)
    exact ⟨j, y, k, hj, htake, .needs (hneed ▸ p.needs_need _ y)⟩
  | rejected _ hj htake hneed =>
    cases hr
    exact ⟨_, _, n, hj, htake, .rejected (hneed ▸ p.needs_need _ _)⟩

/-! ## All elements -/

/-- The world when no more write is to be rejected. -/
def spared (w : World MemoryStore) : World MemoryStore :=
  { w with grid := w.grid.setFault (.failSets 0) }

/-- Without rejections the elements are filled in. -/
theorem ingest_fills (hrun : w.cancelled = false) (hlive : w.grid.isReleased h = false)
    (hnone : w.grid.faults.failSets = 0) (xs : List Element) :
    ∃ w', (p.ingest h xs 0).run.alone MemoryStore.grid w t =
        ((p.fill xs (w.grid.entries h.map) 0).1, w', t) ∧ Kept h w w' ∧
      w'.grid.entries h.map = (p.fill xs (w.grid.entries h.map) 0).2 := by
  obtain ⟨r, w', halone, hkept, houtcome⟩ := p.ingest_outcome (t := t) hrun hlive xs 0
  generalize hmap : w'.grid.entries h.map = e' at houtcome
  cases houtcome with
  | filled => exact ⟨w', halone, hkept, hmap⟩
  | rejected hleft => exact absurd hnone (Nat.ne_of_gt hleft)

/-- All maps hold the same. -/
def SameEntries (w w' : World MemoryStore) : Prop :=
  ∀ map, w'.grid.entries map = w.grid.entries map

/-- What changes one map only is told by it. -/
theorem Kept.same {v v' : World MemoryStore} (hkept : Kept h w v) (hkept' : Kept h w' v')
    (hothers : ∀ map, map ≠ h.map → w'.grid.entries map = w.grid.entries map)
    (hmap : v'.grid.entries h.map = v.grid.entries h.map) : SameEntries v v' := by
  intro map
  by_cases heq : map = h.map
  · rw [heq]
    exact hmap
  · rw [hkept'.others map heq, hkept.others map heq]
    exact hothers map heq

/-- An ingestion of all elements ended with `r`, and led from `w` to `w'`. -/
structure Ingests (p : Partition) (h : Handle) (t : Gatherer) (w w' : World MemoryStore)
    (r : Except Trouble Nat) : Prop where
  kept : Kept h w w'
  completes : ∀ k, r = .ok k →
    p.Completes p.config.elements (w.grid.entries h.map) (w'.grid.entries h.map) k
  /-- If it fails, the first `j` elements were gone through as they would have been without
      rejections, and the one behind them is to blame. -/
  stops : ∀ trouble, r = .error trouble → ∃ j y k v, p.config.elements[j]? = some y ∧
    p.Blames h (w'.grid.entries h.map) y trouble ∧
    (p.ingest h (p.config.elements.take j) 0).run.alone MemoryStore.grid (spared w) t =
      (.ok k, v, t) ∧ SameEntries v w'
  /-- One ingestion without rejections from the start, one from the end, and one more. -/
  resumes : ∃ r₁ v₁ r₂ v₂ v₃,
    (p.ingestAll h).run.alone MemoryStore.grid (spared w) t = (r₁, v₁, t) ∧
    (p.ingestAll h).run.alone MemoryStore.grid (spared w') t = (r₂, v₂, t) ∧ SameEntries v₁ v₂ ∧
    (p.ingestAll h).run.alone MemoryStore.grid v₂ t = (r₂.map fun _ => 0, v₃, t) ∧
    SameEntries v₂ v₃ ∧
    ((∀ x ∈ p.config.elements, (∃ id, x.id = .ok id) ∧ ∃ v, x.value = .ok v) → ∃ k, r₂ = .ok k)

/-- Ingesting all elements, whatever they are and whatever the map holds, with any number of
    rejections set, a handle that is not released and without a cancellation.  If it returns a
    count, the map holds what it held, and for each key of an element that it lacked the serialised
    form of the first element with that key; the count is the number of these keys.  If it fails,
    the map holds what ingesting the elements before some place leaves if nothing is rejected.
    Nothing else changes.  Either way an ingestion without rejections then leaves what a single one
    would have left in the first place; and one more changes nothing, and returns zero if the one
    before it returned a count, as it does if all identifiers and serialised forms can be had. -/
theorem ingestAll_completes_and_resumes (hrun : w.cancelled = false)
    (hlive : w.grid.isReleased h = false) :
    ∃ r w', (p.ingestAll h).run.alone MemoryStore.grid w t = (r, w', t) ∧ p.Ingests h t w w' r := by
  obtain ⟨r, w', halone, hkept, houtcome⟩ := p.ingest_outcome (t := t) hrun hlive p.config.elements 0
  have hspared (xs : List Element) :=
    p.ingest_fills (w := spared w) (t := t) hrun hlive rfl xs
  refine ⟨r, w', halone, hkept, ?_, ?_, ?_⟩
  · rintro k rfl
    generalize w'.grid.entries h.map = e' at houtcome
    obtain ⟨k', hk', hcompletes⟩ := fill_completes houtcome.eq_fill
    rw [hk', Nat.zero_add]
    exact hcompletes
  · rintro trouble rfl
    obtain ⟨j, y, k, hj, htake, hblames⟩ := houtcome.stops
    obtain ⟨v, hv, hkept', hmap⟩ := hspared (p.config.elements.take j)
    have hfill : p.fill (p.config.elements.take j) ((spared w).grid.entries h.map) 0 =
      (.ok k, w'.grid.entries h.map) := htake
    rw [hfill] at hv hmap
    exact ⟨j, y, k, v, hj, hblames, hv, hkept'.same hkept (fun _ _ => rfl) hmap.symm⟩
  · obtain ⟨hle, hge⟩ := houtcome.between
    obtain ⟨v₁, hv₁, hkept₁, hmap₁⟩ := hspared p.config.elements
    obtain ⟨v₂, hv₂, hkept₂, hmap₂⟩ := p.ingest_fills (w := spared w') (t := t)
      (hkept.cancelled.trans hrun) (hkept.live hlive) rfl p.config.elements
    have hnone : v₂.grid.faults.failSets = 0 := by
      obtain ⟨f, hf, hfaults⟩ := hkept₂.faults
      rw [hfaults]
      exact Nat.le_zero.mp hf
    obtain ⟨v₃, hv₃, hkept₃, hmap₃⟩ := p.ingest_fills (w := v₂) (t := t)
      (hkept₂.cancelled.trans (hkept.cancelled.trans hrun)) (hkept₂.live (hkept.live hlive)) hnone
      p.config.elements
    rw [hmap₂, fill_again] at hv₃ hmap₃
    refine ⟨_, v₁, _, v₂, v₃, hv₁, hv₂, ?_, hv₃, ?_, fun hxs => exists_fill_ok hxs _ 0⟩
    · refine hkept₁.same hkept₂ hkept.others ?_
      rw [hmap₁, hmap₂]
      exact (fill_between hle hge).1
    · exact hkept₂.same (hkept₂.trans hkept₃) (fun _ _ => rfl) (hmap₃.trans hmap₂.symm)

/-- The first write is rejected, and the elements are written later. -/
theorem ingestAll_completes_and_resumes_sample :
    ∃ plan w' k v₁ v₂, sampleSettings.resolve "map-tests.load" "load" = .ok plan ∧
      (ingestAll ⟨sampleConfig plan, 0⟩ ⟨0, "m"⟩).run.alone MemoryStore.grid
          { grid := { faults := { failSets := 1 } } } {} =
        (.error (.failed (MemoryStore.rejection ⟨0, "m"⟩ (storageKey ⟨"client"⟩ 0 "0"))), w', {}) ∧
      (ingestAll ⟨sampleConfig plan, 0⟩ ⟨0, "m"⟩).run.alone MemoryStore.grid (spared w') {} =
        (.ok k, v₁, {}) ∧
      (ingestAll ⟨sampleConfig plan, 0⟩ ⟨0, "m"⟩).run.alone MemoryStore.grid v₁ {} =
        (.ok 0, v₂, {}) ∧ SameEntries v₁ v₂ := by
  obtain ⟨plan, hplan⟩ := exists_samplePlan
  obtain ⟨r, w', halone, hingests⟩ := ingestAll_completes_and_resumes
    (p := ⟨sampleConfig plan, 0⟩) (h := ⟨0, "m"⟩) (t := {})
    (w := { grid := { faults := { failSets := 1 } } }) rfl rfl
  obtain ⟨_, _, r₂, v₁, v₂, -, hthen, -, hagain, hsame, hok⟩ := hingests.resumes
  have hrejected : r = .error (.failed
      (MemoryStore.rejection ⟨0, "m"⟩ (storageKey ⟨"client"⟩ 0 "0"))) :=
    (congrArg Prod.fst halone).symm.trans rfl
  have hall : ∀ x ∈ (sampleConfig plan).elements,
      (∃ id, x.id = .ok id) ∧ ∃ v, x.value = .ok v := by
    simp [sampleConfig, sampleItems]
  obtain ⟨k, rfl⟩ := hok hall
  exact ⟨plan, w', k, v₁, v₂, hplan, hrejected ▸ halone, hthen, hagain, hsame⟩

/-- An element whose serialised form cannot be had is never written, and every ingestion fails at
    it again, so that none of them returns zero. -/
theorem ingestAll_unwritable :
    ∃ plan w₁ w₂ w₃, sampleSettings.resolve "map-tests.load" "load" = .ok plan ∧
      (ingestAll ⟨unwritableConfig plan, 0⟩ ⟨0, "m"⟩).run.alone MemoryStore.grid { grid := {} } {} =
        (.error (.failed (.json "odd id 1")), w₁, {}) ∧
      (ingestAll ⟨unwritableConfig plan, 0⟩ ⟨0, "m"⟩).run.alone MemoryStore.grid w₁ {} =
        (.error (.failed (.json "odd id 1")), w₂, {}) ∧
      (ingestAll ⟨unwritableConfig plan, 0⟩ ⟨0, "m"⟩).run.alone MemoryStore.grid w₂ {} =
        (.error (.failed (.json "odd id 1")), w₃, {}) := by
  obtain ⟨plan, hplan⟩ := exists_samplePlan
  exact ⟨plan, _, _, _, hplan, rfl, rfl, rfl⟩

end Partition

end GridBench
