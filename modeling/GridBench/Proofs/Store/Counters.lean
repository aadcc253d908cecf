/-
  GridBench.Proofs.Store.Counters

  The counters of a store.  Every request shows on one of them, once and
  whatever becomes of it: a request for a map when it is sent (`shown_start`),
  every other request when it is answered (`shown_finish`).  Hence counters that
  are kept in 64-bit words are exact up to that many requests (`CallCounts.Fits`).
-/
import GridBench.Store.Memory

namespace GridBench

/-- The counters of a store. -/
inductive Counter where
  | getMap
  | containsKey
  | get
  | set
  | remove
  | destroy
deriving DecidableEq, Repr

/-- The counter that a call shows on. -/
def MapCall.counter : MapCall → Counter
  | .containsKey _ => .containsKey
  | .get _ => .get
  | .set .. => .set
  | .remove _ => .remove

/-- The counter that a request shows on. -/
def Request.counter : Request → Counter
  | .acquire _ => .getMap
  | .call _ c => c.counter
  | .release _ => .destroy

/-- How many of some requests show on a counter. -/
def tolled (c : Counter) (rs : List Request) : Nat := rs.countP fun r => r.counter = c

theorem tolled_append (c : Counter) (rs rs' : List Request) :
    tolled c (rs ++ rs') = tolled c rs + tolled c rs' := List.countP_append

/-- Every request shows on one counter. -/
theorem sum_tolled (rs : List Request) :
    tolled .getMap rs + tolled .containsKey rs + tolled .get rs + tolled .set rs +
      tolled .remove rs + tolled .destroy rs = rs.length := by
  induction rs with
  | nil => rfl
  | cons r rs ih =>
    simp only [tolled, List.countP_cons, List.length_cons] at ih ⊢
    cases hr : r.counter
    all_goals
      simp
      omega

namespace CallCounts

/-- What a counter shows. -/
def shown (n : CallCounts) : Counter → Nat
  | .getMap => n.getMap
  | .containsKey => n.containsKey
  | .get => n.get
  | .set => n.set
  | .remove => n.remove
  | .destroy => n.destroy

theorem shown_note (n : CallCounts) (x : MapCall) (c : Counter) :
    (n.note x).shown c = n.shown c + if x.counter = c then 1 else 0 := by
  cases x <;> cases c <;> rfl

/-- Counts are equal if all their counters show the same. -/
theorem ext_shown {n n' : CallCounts} (h : ∀ c, n.shown c = n'.shown c) : n = n' := by
  cases n
  cases n'
  simp only [CallCounts.mk.injEq]
  exact ⟨h .getMap, h .containsKey, h .get, h .set, h .remove, h .destroy⟩

theorem shown_add (n n' : CallCounts) (c : Counter) :
    (n.add n').shown c = n.shown c + n'.shown c := by
  cases c <;> rfl

theorem total_eq_shown (n : CallCounts) :
    n.total = n.shown .getMap + n.shown .containsKey + n.shown .get + n.shown .set +
      n.shown .remove + n.shown .destroy := rfl

theorem shown_le_total (n : CallCounts) (c : Counter) : n.shown c ≤ n.total := by
  rw [total_eq_shown]
  cases c <;> omega

/-- Every counter is a 64-bit word, and so is their total: none of them has wrapped. -/
structure Fits (n : CallCounts) : Prop where
  shown : ∀ c, n.shown c < UInt64.size
  total : n.total < UInt64.size

theorem fits_of_total_lt {n : CallCounts} (h : n.total < UInt64.size) : n.Fits where
  shown c := Nat.lt_of_le_of_lt (n.shown_le_total c) h
  total := h

end CallCounts

namespace MemoryStore

/-- Whatever becomes of a call, it is counted once. -/
theorem calls_call (s : MemoryStore) (h : Handle) (x : MapCall) :
    (s.call h x).2.calls = s.calls.note x := by
  match x with
  | .containsKey _ | .remove _ =>
    simp only [call]
    split <;> rfl
  | .get _ =>
    simp only [call, readValue]
    split
    · rfl
    · split
      · rfl
      · split <;> rfl
  | .set .. =>
    simp only [call, writeValue]
    split
    · rfl
    · split <;> rfl

/-- So is a release. -/
theorem calls_release (s : MemoryStore) (h : Handle) :
    (s.release h).2.calls = { s.calls with destroy := s.calls.destroy + 1 } := by
  simp only [release]
  split <;> rfl

/-- What answering a request adds to the counters; an acquisition was counted before. -/
theorem shown_finish (s : MemoryStore) (ticket : Nat) (r : Request) (c : Counter) :
    (grid.finish s ticket r).2.calls.shown c =
      s.calls.shown c + if r.counter = c ∧ c ≠ .getMap then 1 else 0 := by
  match r with
  | .acquire m =>
    have hkept : (s.acquire m).2.calls = s.calls := by
      unfold acquire
      split <;> rfl
    show (s.acquire m).2.calls.shown c = _
    rw [hkept, if_neg fun h => h.2 h.1.symm]
    rfl
  | .call h x =>
    show (s.call h x).2.calls.shown c = _
    rw [calls_call, CallCounts.shown_note]
    cases x <;> cases c <;> rfl
  | .release h =>
    show (s.release h).2.calls.shown c = _
    rw [calls_release]
    cases c <;> rfl

/-- What sending a request adds to them. -/
theorem shown_start (s : MemoryStore) (r : Request) (c : Counter) :
    (grid.start s r).2.2.calls.shown c =
      s.calls.shown c + if r.counter = c ∧ c = .getMap then 1 else 0 := by
  match r with
  | .acquire _ | .release _ => cases c <;> rfl
  | .call _ x => cases x <;> cases c <;> rfl

end MemoryStore

end GridBench
