/-
  GridBench.Proofs.Status.Table

  What a sequence of updates makes of a table.  The last write of a key wins,
  and a key that no update names keeps its value.
-/
import GridBench.Status.Gatherer

namespace GridBench

namespace Progress

/-- Writes one update into a table. -/
def write (t : Progress) : StatusUpdate → Progress
  | .update key value => t.insert key value
  | .stop => t

/-- Writes updates into a table, one after the other. -/
def writeAll (t : Progress) (us : List StatusUpdate) : Progress := us.foldl write t

/-- A count in a table; a count that is not there is zero. -/
def count (t : Progress) (key : String) : Nat := (t[key]?.bind Json.natural?).getD 0

@[simp] theorem writeAll_nil (t : Progress) : t.writeAll [] = t := rfl

theorem writeAll_append (t : Progress) (us vs : List StatusUpdate) :
    t.writeAll (us ++ vs) = (t.writeAll us).writeAll vs := List.foldl_append

theorem getElem?_insert_self (t : Progress) (key : String) (value : Json) :
    (t.insert key value)[key]? = some value := Std.ExtTreeMap.getElem?_insert_self

theorem getElem?_insert_of_ne (t : Progress) {key key' : String} (h : key ≠ key') (value : Json) :
    (t.insert key value)[key']? = t[key']? := by
  rw [Std.ExtTreeMap.getElem?_insert, if_neg]
  rwa [Std.LawfulEqCmp.compare_eq_iff_eq]

/-- Whether an update writes the value under a key. -/
def writes (key : String) : StatusUpdate → Bool
  | .update key' _ => key' = key
  | .stop => false

theorem getElem?_write {t : Progress} {key : String} {u : StatusUpdate}
    (h : writes key u = false) : (t.write u)[key]? = t[key]? := by
  cases u with
  | stop => rfl
  | update key' value =>
    have hne : key' ≠ key := by simpa [writes] using h
    exact getElem?_insert_of_ne t hne value

/-- A write does to the value of a key what it does to it in any other table. -/
theorem getElem?_write_congr {t t' : Progress} {key : String} (h : t[key]? = t'[key]?)
    (u : StatusUpdate) : (t.write u)[key]? = (t'.write u)[key]? := by
  cases hw : writes key u with
  | false => rw [getElem?_write hw, getElem?_write hw, h]
  | true =>
    cases u with
    | stop => cases hw
    | update key' value =>
      have hkey : key' = key := by simpa [writes] using hw
      subst hkey
      exact (getElem?_insert_self _ _ _).trans (getElem?_insert_self _ _ _).symm

/-- Updates that do not write a key can be left out when it is looked up. -/
theorem getElem?_writeAll_filter {t t' : Progress} {key : String} {us : List StatusUpdate}
    {P : StatusUpdate → Bool} (ht : t[key]? = t'[key]?)
    (h : ∀ u ∈ us, writes key u = true → P u = true) :
    (t.writeAll us)[key]? = (t'.writeAll (us.filter P))[key]? := by
  -- The two tables differ in other keys once an update is left out, so the induction is on both.
  induction us generalizing t t' with
  | nil => exact ht
  | cons u us ih =>
    have htail := fun u' hu' => h u' (List.mem_cons_of_mem _ hu')
    have hu := h u List.mem_cons_self
    cases hP : P u with
    | true =>
      rw [List.filter_cons_of_pos hP]
      exact ih (getElem?_write_congr ht u) htail
    | false =>
      rw [List.filter_cons_of_neg (by simp [hP])]
      refine ih ?_ htail
      have hw : writes key u = false := by
        refine Bool.eq_false_iff.mpr fun hw => ?_
        exact absurd (hP.symm.trans (hu hw)) (by decide)
      rw [getElem?_write hw, ht]

/-- A key that no update writes keeps its value. -/
theorem getElem?_writeAll_of_forall {t : Progress} {key : String} {us : List StatusUpdate}
    (h : ∀ u ∈ us, writes key u = false) : (t.writeAll us)[key]? = t[key]? := by
  have hnone : us.filter (writes key) = [] :=
    List.filter_eq_nil_iff.mpr fun u hu => by simp [h u hu]
  rw [getElem?_writeAll_filter rfl fun u _ hw => hw, hnone, writeAll_nil]

end Progress

namespace Gatherer

theorem sendAll_listening (t : Progress) (pending us : List StatusUpdate) (n : Nat) :
    us.foldl (fun g u => (g.send u).1) (⟨t, pending, .listening, n⟩ : Gatherer) =
      ⟨t, pending ++ us, .listening, n⟩ := by
  induction us generalizing pending with
  | nil => simp
  | cons u us ih =>
    rw [List.foldl_cons]
    have hsend : ((⟨t, pending, .listening, n⟩ : Gatherer).send u).1 =
        ⟨t, pending ++ [u], .listening, n⟩ := rfl
    rw [hsend, ih, List.append_assoc, List.singleton_append]

end Gatherer

end GridBench
