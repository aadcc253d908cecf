/-
  GridBench.Proofs.Run.Readback

  Reading all load elements back from a store in memory.  The reads use up what
  is left of the evictions and corruptions, so that the number of a read and what
  the map holds decide together what it answers (`Partition.answer`).  An answer
  is intact or it offends, and the first offender ends the reading and is blamed
  (`Readback`).  A read leaves the answers to those behind it as they were
  (`answer_call`), which carries the induction on the elements.  Main statement:
  `readAll_accepts_intact`.
-/
import GridBench.Proofs.Run.Ending
import GridBench.Proofs.Run.Solo
import GridBench.Proofs.Store.Rations

namespace GridBench

namespace Partition

open Watched (sampleSettings sampleConfig exists_samplePlan)

variable {p : Partition} {h : Handle} {s : MemoryStore} {w : World MemoryStore} {t : Gatherer}
variable {x : LoadElement} {xs : List LoadElement} {f : Fault} {n reads : Nat}
variable {r : Except Trouble Nat}

/-! ## Answers -/

/-- The full key of a load element. -/
def loadKey (p : Partition) (x : LoadElement) : String :=
  storageKey p.config.client p.number x.key

/-- What the read with the number `i` answers, counted from zero, if it asks for a load element. -/
def answer (p : Partition) (h : Handle) (s : MemoryStore) (i : Nat) (x : LoadElement) :
    Option Json :=
  MemoryStore.offered s.faults.evictGets s.faults.corruptGets i (s.entries h.map)[p.loadKey x]?

/-- An answer that is there and accepted. -/
def Intact (a : Option Json) : Prop := ∃ v, a = some v ∧ LoadElement.shape.check v = .ok ()

/-- What an answer to the read of a key is blamed with. -/
inductive Offends (key : String) : Option Json → Fault → Prop
  | missing : Offends key none (.missingValue key)
  | rejected {v : Json} {problem : String} :
      LoadElement.shape.check v = .error (.deserialization problem) →
      Offends key (some v) (.deserialization problem)

theorem Offends.not_intact {key : String} {a : Option Json} (ha : Offends key a f) : ¬ Intact a := by
  rintro ⟨v, hv, hok⟩
  cases ha with
  | missing => cases hv
  | rejected hcheck =>
    cases hv
    cases hcheck.symm.trans hok

theorem Offends.unique {key : String} {a : Option Json} {f' : Fault} (ha : Offends key a f)
    (ha' : Offends key a f') : f = f' := by
  cases ha with
  | missing =>
    cases ha'
    rfl
  | rejected hcheck =>
    cases ha' with
    | rejected hcheck' => exact Except.error.inj (hcheck.symm.trans hcheck')

/-- An answer is intact or it offends. -/
theorem intact_or_offends (key : String) (a : Option Json) : Intact a ∨ ∃ f, Offends key a f := by
  cases a with
  | none => exact .inr ⟨_, .missing⟩
  | some v =>
    cases hcheck : LoadElement.shape.check v with
    | ok u => exact .inl ⟨v, rfl, hcheck⟩
    | error f =>
      -- The check fails in one way only.
      obtain ⟨problem, rfl⟩ : ∃ problem, f = .deserialization problem := by
        unfold RecordShape.check at hcheck
        split at hcheck
        · cases hcheck
        · exact ⟨_, (Except.error.inj hcheck).symm⟩
      exact .inr ⟨_, .rejected hcheck⟩

/-- A read. -/
theorem call_loadKey (hlive : s.isReleased h = false) (x : LoadElement) :
    (s.call h (.get (p.loadKey x))).1 = .ok (p.answer h s 0 x) := by
  rw [MemoryStore.call_get hlive]
  rfl

/-- After a read the others are answered as they would have been. -/
theorem answer_call (hlive : s.isReleased h = false) (key : String) (i : Nat) (x : LoadElement) :
    p.answer h (s.call h (.get key)).2 i x = p.answer h s (i + 1) x := by
  rw [MemoryStore.call_get hlive, Nat.add_comm i 1]
  exact MemoryStore.offered_add s.faults.evictGets s.faults.corruptGets 1 i _

/-! ## One element after the other -/

/-- The elements before a place are read one after the other, and all are intact. -/
def IntactBefore (p : Partition) (h : Handle) (s : MemoryStore) (xs : List LoadElement) (i : Nat) :
    Prop :=
  ∀ j y, j < i → xs[j]? = some y → Intact (p.answer h s j y)

theorem IntactBefore.cons {i : Nat} (hlive : s.isReleased h = false) (hx : Intact (p.answer h s 0 x))
    (hxs : p.IntactBefore h (s.call h (.get (p.loadKey x))).2 xs i) :
    p.IntactBefore h s (x :: xs) (i + 1) := by
  intro j y hj hy
  cases j with
  | zero =>
    cases hy
    exact hx
  | succ j =>
    rw [← answer_call hlive (p.loadKey x)]
    exact hxs j y (Nat.lt_of_succ_lt_succ hj) hy

/-- The first element whose answer offends, its place, and what it is blamed with. -/
structure FirstOffender (p : Partition) (h : Handle) (s : MemoryStore) (xs : List LoadElement)
    (i : Nat) (x : LoadElement) (f : Fault) : Prop where
  place : xs[i]? = some x
  before : p.IntactBefore h s xs i
  offends : Offends (p.loadKey x) (p.answer h s i x) f

/-- How reading load elements back ends, and with how many reads.  If all are intact, `n` is the
    result. -/
inductive Readback (p : Partition) (h : Handle) (s : MemoryStore) (n : Nat)
    (xs : List LoadElement) : Except Trouble Nat → Nat → Prop
  | accepted : p.IntactBefore h s xs xs.length → Readback p h s n xs (.ok n) xs.length
  | blamed {i : Nat} {x : LoadElement} {f : Fault} : p.FirstOffender h s xs i x f →
      Readback p h s n xs (.error (.failed f)) (i + 1)

/-- An intact element is read, and then the others. -/
theorem Readback.cons (hlive : s.isReleased h = false) (hx : Intact (p.answer h s 0 x))
    (hxs : p.Readback h (s.call h (.get (p.loadKey x))).2 n xs r reads) :
    p.Readback h s n (x :: xs) r (reads + 1) := by
  cases hxs with
  | accepted hall => exact .accepted (hall.cons hlive hx)
  | blamed hfirst =>
    refine .blamed ⟨hfirst.place, hfirst.before.cons hlive hx, ?_⟩
    rw [← answer_call hlive (p.loadKey x)]
    exact hfirst.offends

/-- What reading leaves of a store: the maps as they are, and so many more reads. -/
structure OnlyRead (s s' : MemoryStore) (reads : Nat) : Prop where
  maps : s'.maps = s.maps
  calls : s'.calls = { s.calls with get := s.calls.get + reads }

theorem onlyRead_call (hlive : s.isReleased h = false) (key : String) :
    OnlyRead s (s.call h (.get key)).2 1 := by
  rw [MemoryStore.call_get hlive]
  exact ⟨rfl, rfl⟩

theorem OnlyRead.trans {s' s'' : MemoryStore} {n n' : Nat} (h : OnlyRead s s' n)
    (h' : OnlyRead s' s'' n') : OnlyRead s s'' (n' + n) := by
  refine ⟨h'.maps.trans h.maps, ?_⟩
  rw [h'.calls, h.calls, Nat.add_comm n' n, ← Nat.add_assoc]

/-- Reading load elements back. -/
theorem readAll_readback (hcheck : p.config.check = LoadElement.shape.check)
    (hrun : w.cancelled = false) (hlive : w.grid.isReleased h = false) (xs : List LoadElement) :
    ∃ r w' reads,
      (p.readAll h (xs.map LoadElement.element)).run.alone MemoryStore.grid w t = (r, w', t) ∧
        p.Readback h w.grid p.config.elements.length xs r reads ∧
        OnlyRead w.grid w'.grid reads := by
  induction xs generalizing w with
  | nil => exact ⟨_, _, _, rfl, .accepted fun j _ hj => absurd hj (Nat.not_lt_zero j), rfl, rfl⟩
  | cons x xs ih =>
    let v : World MemoryStore := { w with grid := (w.grid.call h (.get (p.loadKey x))).2 }
    have hkey : (p.keyOf x.element).run.alone MemoryStore.grid w t = (.ok (p.loadKey x), w, t) := rfl
    have hcall : (Attempt.call h (.get (p.loadKey x))).run.alone MemoryStore.grid w t =
        (.ok (p.answer h w.grid 0 x), v, t) := by
      rw [Attempt.alone_call hrun, call_loadKey hlive]
      rfl
    have hchecked (j : Json) : (Attempt.ofExcept (p.config.check j)).run.alone
        MemoryStore.grid v t = ((LoadElement.shape.check j).mapError .failed, v, t) := by
      rw [← hcheck]
      exact Attempt.alone_ofExcept _
    have honly : OnlyRead w.grid v.grid 1 := onlyRead_call hlive (p.loadKey x)
    rw [List.map_cons, readAll, Attempt.alone_bind_ok _ hkey, Attempt.alone_bind_ok _ hcall]
    -- What the check says of the answer decides whether the reading goes on.
    rcases intact_or_offends (p.loadKey x) (p.answer h w.grid 0 x) with hintact | ⟨f, hf⟩
    · obtain ⟨j, hj, hok⟩ := id hintact
      have hlive' : v.grid.isReleased h = false := by
        rw [MemoryStore.isReleased_call]
        exact hlive
      obtain ⟨r, w', reads, halone, hback, honly'⟩ := ih (w := v) hrun hlive'
      refine ⟨r, w', reads + 1, ?_, hback.cons hlive hintact, honly.trans honly'⟩
      have haccepted := hchecked j
      rw [hok] at haccepted
      rw [hj]
      exact (Attempt.alone_bind_ok (fun _ => p.readAll h (xs.map LoadElement.element))
        haccepted).trans halone
    · have hblamed : p.FirstOffender h w.grid (x :: xs) 0 x f :=
        ⟨rfl, fun j _ hj => absurd hj (Nat.not_lt_zero j), hf⟩
      refine ⟨.error (.failed f), v, 1, ?_, .blamed hblamed, honly⟩
      generalize p.answer h w.grid 0 x = a at hf
      cases hf with
      | missing => rfl
      | @rejected j problem hcheck =>
        have hrejected := hchecked j
        rw [hcheck] at hrejected
        exact Attempt.alone_bind_error (fun _ => p.readAll h (xs.map LoadElement.element))
          hrejected

/-! ## All elements -/

/-- Reading accepts what is intact, and blames the first offender for anything else. -/
structure Accepts (p : Partition) (h : Handle) (s : MemoryStore) (xs : List LoadElement)
    (r : Except Trouble Nat) (reads : Nat) : Prop where
  ok_iff : r = .ok xs.length ↔ ∀ i x, xs[i]? = some x → Intact (p.answer h s i x)
  all_read : r = .ok xs.length → reads = xs.length
  exists_first : r ≠ .ok xs.length → ∃ i x f, p.FirstOffender h s xs i x f
  blamed : ∀ i x f, p.FirstOffender h s xs i x f → r = .error (.failed f) ∧ reads = i + 1

/-- There is one first offender at most. -/
theorem FirstOffender.unique {i j : Nat} {y : LoadElement} {f' : Fault}
    (hi : p.FirstOffender h s xs i x f) (hj : p.FirstOffender h s xs j y f') : i = j ∧ f = f' := by
  obtain hlt | rfl | hgt := Nat.lt_trichotomy i j
  · exact absurd (hj.before i x hlt hi.place) hi.offends.not_intact
  · obtain rfl := Option.some.inj (hi.place.symm.trans hj.place)
    exact ⟨rfl, hi.offends.unique hj.offends⟩
  · exact absurd (hi.before j y hgt hj.place) hj.offends.not_intact

theorem Readback.accepts (hr : p.Readback h s xs.length xs r reads) :
    p.Accepts h s xs r reads := by
  cases hr with
  | accepted hall =>
    have hintact : ∀ i x, xs[i]? = some x → Intact (p.answer h s i x) :=
      fun i x hx => hall i x (List.getElem?_eq_some_iff.mp hx).1 hx
    refine ⟨iff_of_true rfl hintact, fun _ => rfl, fun hne => absurd rfl hne, fun i x f hfirst => ?_⟩
    exact absurd (hintact i x hfirst.place) hfirst.offends.not_intact
  | @blamed i x f hfirst =>
    have hne : Except.error (.failed f) ≠ (.ok xs.length : Except Trouble Nat) := fun hok => by
      cases hok
    refine ⟨iff_of_false hne fun hall => ?_, fun hok => absurd hok hne,
      fun _ => ⟨i, x, f, hfirst⟩, fun j y f' hfirst' => ?_⟩
    · exact hfirst.offends.not_intact (hall i x hfirst.place)
    · obtain ⟨rfl, rfl⟩ := hfirst.unique hfirst'
      exact ⟨rfl, rfl⟩

/-- Reading all load elements back, whatever the map holds and whatever evictions and corruptions
    are left, with a handle that is not released and without a cancellation.  No map changes.  The
    result is the number of elements if the answers for all elements, in their order, are there and
    accepted, and only then.  Otherwise there is a first offender, and the result is its failure: a
    missing value under its full key if nothing was answered, else what the check of the value
    says.  The reads made are those up to the offender. -/
theorem readAll_accepts_intact (helements : p.config.elements = xs.map LoadElement.element)
    (hcheck : p.config.check = LoadElement.shape.check) (hrun : w.cancelled = false)
    (hlive : w.grid.isReleased h = false) :
    ∃ r w' reads,
      (p.readAll h p.config.elements).run.alone MemoryStore.grid w t = (r, w', t) ∧
        p.Accepts h w.grid xs r reads ∧ OnlyRead w.grid w'.grid reads := by
  obtain ⟨r, w', reads, halone, hback, honly⟩ := readAll_readback (t := t) hcheck hrun hlive xs
  have hlength : p.config.elements.length = xs.length := by rw [helements, List.length_map]
  rw [hlength] at hback
  rw [helements]
  exact ⟨r, w', reads, halone, hback.accepts, honly⟩

/-- A store that holds the first element of the sample run only. -/
def halfStore : MemoryStore :=
  MemoryStore.withEntries {} "m" ((∅ : Entries).insert "client-0-0" (LoadElement.toJson ⟨"0", "x"⟩))

theorem getElem?_halfStore (key : String) : (halfStore.entries "m")[key]? =
    if key = "client-0-0" then some (LoadElement.toJson ⟨"0", "x"⟩) else none := by
  rw [halfStore, MemoryStore.entries_withEntries, if_pos rfl, Std.ExtTreeMap.getElem?_insert,
    Std.ExtTreeMap.getElem?_empty]
  simp only [Std.LawfulEqCmp.compare_eq_iff_eq, @eq_comm _ "client-0-0"]

/-- The first one is read, and the second one is blamed. -/
theorem readAll_accepts_intact_sample :
    ∃ plan w', sampleSettings.resolve "map-tests.load" "load" = .ok plan ∧
      (Partition.readAll ⟨sampleConfig plan, 0⟩ ⟨0, "m"⟩ (sampleConfig plan).elements).run.alone
        MemoryStore.grid { grid := halfStore } {} =
          (.error (.failed (.missingValue "client-0-1")), w', {}) ∧
      w'.grid.calls.get = 2 := by
  obtain ⟨plan, hplan⟩ := exists_samplePlan
  let p : Partition := ⟨sampleConfig plan, 0⟩
  have helements : p.config.elements = [⟨"0", "x"⟩, ⟨"1", "x"⟩].map LoadElement.element := rfl
  obtain ⟨r, w', reads, halone, haccepts, honly⟩ := readAll_accepts_intact (h := ⟨0, "m"⟩)
    (w := { grid := halfStore }) (t := {}) helements rfl rfl rfl
  have hkeys : p.loadKey ⟨"0", "x"⟩ = "client-0-0" ∧ p.loadKey ⟨"1", "x"⟩ = "client-0-1" := by
    show storageKey ⟨"client"⟩ 0 "0" = _ ∧ storageKey ⟨"client"⟩ 0 "1" = _
    decide
  have hfirst : p.FirstOffender ⟨0, "m"⟩ halfStore [⟨"0", "x"⟩, ⟨"1", "x"⟩] 1 ⟨"1", "x"⟩
      (.missingValue "client-0-1") := by
    refine ⟨rfl, fun j y hj hy => ?_, ?_⟩
    · obtain rfl := Nat.lt_one_iff.mp hj
      cases hy
      refine ⟨LoadElement.toJson ⟨"0", "x"⟩, ?_, by decide⟩
      rw [answer, hkeys.1, getElem?_halfStore]
      rfl
    · rw [answer, hkeys.2, getElem?_halfStore]
      exact .missing
  obtain ⟨rfl, rfl⟩ := haccepts.blamed _ _ _ hfirst
  refine ⟨plan, w', hplan, halone, ?_⟩
  rw [honly.calls]
  rfl

end Partition

end GridBench
