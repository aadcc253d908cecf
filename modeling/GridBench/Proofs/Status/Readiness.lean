/-
  GridBench.Proofs.Status.Readiness

  What a history of signals makes of readiness.  The count of unmatched signals
  never goes below zero, so that a signal of being ready that comes too early is
  forgotten.  Hence the count is no difference of two totals but the largest
  surplus over all ends of the history (`pending_after_le_iff`), and readiness is
  up if no end has a surplus (`Settled`) and somebody has raised it.

  Of runners that signal once that they are not ready and then once that they
  are, the count is the number of those in between (`Orderly.pending_eq_card`).
  Main statement: `isUp_iff_settled`.
-/
import Mathlib.Data.Finset.Card
import Mathlib.Data.List.Infix
import GridBench.Status.Readiness

namespace GridBench

namespace Readiness

open ReadinessSignal (notReady ready)

variable {us vs w : List ReadinessSignal} {s : ReadinessSignal}

/-! ## Histories -/

/-- Readiness after a history of signals. -/
def after (w : List ReadinessSignal) : Readiness := (signals {} w).1

/-- What a history of signals has logged. -/
def logged (w : List ReadinessSignal) : List Record := (signals {} w).2

theorem signals_concat (r : Readiness) (us : List ReadinessSignal) (s : ReadinessSignal) :
    r.signals (us ++ [s]) =
      (((r.signals us).1.signal s).1, (r.signals us).2 ++ ((r.signals us).1.signal s).2) := by
  induction us generalizing r with
  | nil => simp [signals]
  | cons u us ih => simp [signals, ih]

theorem after_concat (us : List ReadinessSignal) (s : ReadinessSignal) :
    after (us ++ [s]) = ((after us).signal s).1 := by
  rw [after, signals_concat, after]

theorem logged_concat (us : List ReadinessSignal) (s : ReadinessSignal) :
    logged (us ++ [s]) = logged us ++ ((after us).signal s).2 := by
  rw [logged, signals_concat, logged, after]

theorem pending_signal_notReady (r : Readiness) : (r.signal notReady).1.pending = r.pending + 1 :=
  rfl

theorem pending_signal_ready (r : Readiness) : (r.signal ready).1.pending = r.pending - 1 := rfl

/-- The ends of a history that goes on are the empty one and the ends so far, each going on. -/
theorem forall_suffix_concat {P : List ReadinessSignal → Prop} :
    (∀ v, v <:+ us ++ [s] → P v) ↔ P [] ∧ ∀ v, v <:+ us → P (v ++ [s]) := by
  simp only [List.suffix_concat_iff]
  constructor
  · intro h
    exact ⟨h [] (.inl rfl), fun v hv => h _ (.inr ⟨v, rfl, hv⟩)⟩
  · rintro ⟨hnil, hconcat⟩ v (rfl | ⟨v, rfl, hv⟩)
    · exact hnil
    · exact hconcat v hv

/-! ## The count of unmatched signals -/

/-- One more signal of not being ready adds one to the surplus. -/
theorem surplus_concat_notReady (v : List ReadinessSignal) (n : Nat) :
    (v ++ [notReady]).count notReady ≤ (v ++ [notReady]).count ready + (n + 1) ↔
      v.count notReady ≤ v.count ready + n := by
  have hnot : (v ++ [notReady]).count notReady = v.count notReady + 1 := by simp
  have hready : (v ++ [notReady]).count ready = v.count ready := by simp
  omega

/-- One more signal of being ready takes one off it. -/
theorem surplus_concat_ready (v : List ReadinessSignal) (n : Nat) :
    (v ++ [ready]).count notReady ≤ (v ++ [ready]).count ready + n ↔
      v.count notReady ≤ v.count ready + (n + 1) := by
  have hnot : (v ++ [ready]).count notReady = v.count notReady := by simp
  have hready : (v ++ [ready]).count ready = v.count ready + 1 := by simp
  omega

/-- The count of unmatched signals is the largest surplus, over all ends of the history, of signals
    of not being ready over those of being ready. -/
theorem pending_after_le_iff (w : List ReadinessSignal) (n : Nat) :
    (after w).pending ≤ n ↔ ∀ v, v <:+ w → v.count notReady ≤ v.count ready + n := by
  induction w using List.reverseRecOn generalizing n with
  | nil =>
    refine iff_of_true (Nat.zero_le n) fun v hv => ?_
    rw [List.suffix_nil.mp hv]
    exact Nat.zero_le _
  | append_singleton us s ih =>
    have hnil : ([] : List ReadinessSignal).count notReady ≤ [].count ready + n := Nat.zero_le _
    rw [after_concat, forall_suffix_concat, and_iff_right hnil]
    cases s with
    | notReady =>
      rw [pending_signal_notReady]
      cases n with
      | zero =>
        -- The last signal is a surplus by itself.
        refine iff_of_false (Nat.not_succ_le_zero _) fun h => ?_
        exact absurd (h [] List.nil_suffix) (by decide)
      | succ n => simp only [Nat.add_le_add_iff_right, ih, surplus_concat_notReady]
    | ready => simp only [pending_signal_ready, Nat.sub_le_iff_le_add, ih, surplus_concat_ready]

/-- No end of a history holds more signals of not being ready than of being ready. -/
def Settled (w : List ReadinessSignal) : Prop :=
  ∀ v, v <:+ w → v.count notReady ≤ v.count ready

instance : DecidablePred Settled := fun w =>
  decidable_of_iff (∀ v ∈ w.tails, v.count notReady ≤ v.count ready)
    (forall_congr' fun _ => imp_congr_left (List.mem_tails _ _))

theorem pending_after_eq_zero_iff (w : List ReadinessSignal) :
    (after w).pending = 0 ↔ Settled w := by
  rw [← Nat.le_zero, pending_after_le_iff]
  rfl

/-- The count of unmatched signals is no larger than the number of signals. -/
theorem pending_after_le_length (w : List ReadinessSignal) : (after w).pending ≤ w.length := by
  refine (pending_after_le_iff w _).mpr fun v hv => ?_
  have hle : v.count notReady ≤ w.length := List.count_le_length.trans hv.length_le
  omega

/-- Readiness was raised if some signal raised it. -/
theorem raised_after_iff (w : List ReadinessSignal) : (after w).raised = true ↔ ready ∈ w := by
  induction w using List.reverseRecOn with
  | nil => exact iff_of_false Bool.false_ne_true List.not_mem_nil
  | append_singleton us s ih =>
    rw [after_concat, List.mem_append, List.mem_singleton]
    cases s with
    | notReady => exact ih.trans (or_iff_left fun h => by cases h).symm
    | ready => exact iff_of_true rfl (.inr rfl)

theorem isUp_after_iff (w : List ReadinessSignal) :
    (after w).isUp = true ↔ ready ∈ w ∧ Settled w := by
  rw [isUp, Bool.and_eq_true, decide_eq_true_eq, raised_after_iff, pending_after_eq_zero_iff]

/-- What one more signal logs. -/
theorem logged_concat_eq (us : List ReadinessSignal) (s : ReadinessSignal) :
    logged (us ++ [s]) = logged us ++ if s = ready ∧ Settled us then [unmatched] else [] := by
  rw [logged_concat]
  cases s with
  | notReady => rw [if_neg fun h => by cases h.1]; rfl
  | ready => simp only [signal, pending_after_eq_zero_iff, true_and]

/-! ## Runners -/

section Runners

variable {ι : Type} [DecidableEq ι] {h : List (ι × ReadinessSignal)} {i j : ι}

/-- What one of the runners has signalled. -/
def own (i : ι) (h : List (ι × ReadinessSignal)) : List ReadinessSignal :=
  (h.filter fun x => x.1 = i).map Prod.snd

theorem own_concat_self (h : List (ι × ReadinessSignal)) (i : ι) (s : ReadinessSignal) :
    own i (h ++ [(i, s)]) = own i h ++ [s] := by
  simp [own]

theorem own_concat_other (hne : j ≠ i) (h : List (ι × ReadinessSignal)) (s : ReadinessSignal) :
    own i (h ++ [(j, s)]) = own i h := by
  simp [own, hne]

theorem mem_of_own_ne_nil (hi : own i h ≠ []) : i ∈ h.map Prod.fst := by
  obtain ⟨s, hs⟩ := List.exists_mem_of_ne_nil _ hi
  obtain ⟨x, hx, -⟩ := List.mem_map.mp hs
  obtain ⟨hmem, heq⟩ := List.mem_filter.mp hx
  exact List.mem_map.mpr ⟨x, hmem, of_decide_eq_true heq⟩

/-- Every runner has signalled once at most that it is not ready, and after that once at most that
    it is. -/
def Orderly (h : List (ι × ReadinessSignal)) : Prop := ∀ i, own i h <+: [notReady, ready]

/-- The runners between their two signals. -/
def between (h : List (ι × ReadinessSignal)) : Finset ι :=
  {i ∈ (h.map Prod.fst).toFinset | own i h = [notReady]}

theorem mem_between : i ∈ between h ↔ own i h = [notReady] := by
  rw [between, Finset.mem_filter, List.mem_toFinset]
  refine and_iff_right_of_imp fun hi => mem_of_own_ne_nil ?_
  rw [hi]
  exact List.cons_ne_nil _ _

theorem Orderly.of_concat {x : ι × ReadinessSignal} (hh : Orderly (h ++ [x])) : Orderly h := by
  intro i
  by_cases hne : x.1 = i
  · subst hne
    exact ((own_concat_self h x.1 x.2) ▸ List.prefix_append _ _ : own x.1 h <+: _).trans (hh x.1)
  · rw [← own_concat_other hne h x.2]
    exact hh i

/-- Where a runner stands at its next signal. -/
theorem Orderly.last {s : ReadinessSignal} (hh : Orderly (h ++ [(j, s)])) :
    own j h = [] ∧ s = notReady ∨ own j h = [notReady] ∧ s = ready := by
  have hj := hh j
  rw [own_concat_self] at hj
  generalize own j h = u at hj ⊢
  match u with
  | [] => exact .inl ⟨rfl, by simpa using hj⟩
  | [a] => exact .inr (by simpa using hj)
  | a :: b :: u => simp at hj

theorem between_concat_notReady (hj : own j h = []) :
    between (h ++ [(j, notReady)]) = insert j (between h) := by
  ext i
  rw [Finset.mem_insert, mem_between, mem_between]
  by_cases hne : j = i
  · subst hne
    rw [own_concat_self, hj]
    exact iff_of_true rfl (.inl rfl)
  · rw [own_concat_other hne, or_iff_right (Ne.symm hne)]

theorem between_concat_ready (hj : own j h = [notReady]) :
    between (h ++ [(j, ready)]) = (between h).erase j := by
  ext i
  rw [Finset.mem_erase, mem_between, mem_between]
  by_cases hne : j = i
  · subst hne
    rw [own_concat_self, hj]
    exact iff_of_false (by decide) fun hi => hi.1 rfl
  · rw [own_concat_other hne, and_iff_right (Ne.symm hne)]

/-- The count of unmatched signals is the number of the runners between their two signals. -/
theorem Orderly.pending_eq_card (hh : Orderly h) :
    (after (h.map Prod.snd)).pending = (between h).card := by
  induction h using List.reverseRecOn with
  | nil => rfl
  | append_singleton h x ih =>
    obtain ⟨j, s⟩ := x
    rw [List.map_append, List.map_singleton, after_concat]
    -- A runner goes in between with its first signal, and leaves with its second one.
    rcases hh.last with ⟨hj, rfl⟩ | ⟨hj, rfl⟩
    · have hnot : j ∉ between h := fun hmem => by
        rw [mem_between, hj] at hmem
        cases hmem
      rw [pending_signal_notReady, ih hh.of_concat, between_concat_notReady hj,
        Finset.card_insert_of_notMem hnot]
    · rw [pending_signal_ready, ih hh.of_concat, between_concat_ready hj,
        Finset.card_erase_of_mem (mem_between.mpr hj)]

theorem ready_mem_iff : ready ∈ h.map Prod.snd ↔ ∃ i, ready ∈ own i h := by
  simp [own]

/-- Readiness is up if some runner has raised it and none is between its two signals. -/
theorem Orderly.isUp_iff (hh : Orderly h) : (after (h.map Prod.snd)).isUp = true ↔
    (∃ i, ready ∈ own i h) ∧ ∀ i, own i h ≠ [notReady] := by
  have hnone : (between h).card = 0 ↔ ∀ i, own i h ≠ [notReady] := by
    rw [Finset.card_eq_zero, Finset.eq_empty_iff_forall_notMem]
    exact forall_congr' fun i => not_congr mem_between
  rw [isUp, Bool.and_eq_true, decide_eq_true_eq, raised_after_iff, ready_mem_iff,
    hh.pending_eq_card, hnone]

end Runners

/-- When readiness is up after any signals: if it was raised, and no end of the history holds more
    signals of not being ready than of being ready.  The count behind it stays within the number of
    signals.  A signal is warned about if it is one of being ready, and that held of the history
    before it.  So readiness of runners that signal once each that they are not ready and then once
    that they are, in any order among them, is up if one of them has raised it and none is in
    between. -/
theorem isUp_iff_settled :
    (∀ w : List ReadinessSignal, ((after w).isUp = true ↔ ready ∈ w ∧ Settled w) ∧
      (after w).pending ≤ w.length) ∧
    (∀ (us : List ReadinessSignal) (s : ReadinessSignal), logged (us ++ [s]) = logged us ++
      if s = ready ∧ Settled us then [unmatched] else []) ∧
    ∀ (ι : Type) [DecidableEq ι] (h : List (ι × ReadinessSignal)), Orderly h →
      ((after (h.map Prod.snd)).isUp = true ↔
        (∃ i, ready ∈ own i h) ∧ ∀ i, own i h ≠ [notReady]) :=
  ⟨fun w => ⟨isUp_after_iff w, pending_after_le_length w⟩, logged_concat_eq,
    fun _ _ _ hh => hh.isUp_iff⟩

/-- Two runners signal in turns, and readiness is up when both are through. -/
theorem isUp_iff_settled_sample :
    Orderly [(false, notReady), (true, notReady), (false, ready), (true, ready)] ∧
      (after [notReady, notReady, ready, ready]).isUp = true := by
  have horderly : Orderly [(false, notReady), (true, notReady), (false, ready), (true, ready)] := by
    unfold Orderly
    decide
  refine ⟨horderly, ?_⟩
  exact (isUp_iff_settled.2.2 Bool _ horderly).mpr ⟨⟨true, by decide⟩, by decide⟩

/-- A signal of being ready that comes too early makes up for none that comes later. -/
example : (after [ready, notReady]).isUp = false ∧ logged [ready, notReady] = [unmatched] := by
  decide

end Readiness

end GridBench
