/-
  GridBench.Proofs.Json.Members

  The members of an object.  They are listed in increasing order of their
  names, so that members listed in any order make one object only
  (`Members.eq_ofList`).
-/
import Mathlib.Data.List.Perm.Basic
import Mathlib.Order.Basic
import Mathlib.Data.String.Basic
import GridBench.Json.Basic

namespace GridBench.Members

/-- Whether members are listed in increasing order of their names. -/
def Sorted (ms : Members) : Prop := ms.Pairwise fun m m' => m.1 < m'.1

variable {ms pairs : Members} {name : String} {v : Json}

/-- No two members have one name. -/
theorem Sorted.nodup_names (h : ms.Sorted) : (ms.map Prod.fst).Nodup :=
  List.pairwise_map.mpr (h.imp ne_of_lt)

theorem eq_or_mem_of_mem_insert {m : String × Json} (h : m ∈ ms.insert name v) :
    m = (name, v) ∨ m ∈ ms := by
  induction ms with
  | nil => exact .inl (List.mem_singleton.mp h)
  | cons first rest ih =>
    rw [insert] at h
    split at h
    · exact (List.mem_cons.mp h).imp_right (List.mem_cons_of_mem _)
    · split at h
      · exact List.mem_cons.mp h
      · rcases List.mem_cons.mp h with rfl | h
        · exact .inr List.mem_cons_self
        · exact (ih h).imp_right (List.mem_cons_of_mem _)

theorem Sorted.insert (h : ms.Sorted) (name : String) (v : Json) : (ms.insert name v).Sorted := by
  induction ms with
  | nil => exact List.pairwise_singleton _ _
  | cons first rest ih =>
    obtain ⟨hfirst, hrest⟩ := List.pairwise_cons.mp h
    rw [Members.insert]
    split
    · rename_i heq
      exact List.pairwise_cons.mpr ⟨fun m hm => heq ▸ hfirst m hm, hrest⟩
    · rename_i hne
      split
      · rename_i hlt
        refine List.pairwise_cons.mpr ⟨fun m hm => ?_, h⟩
        rcases List.mem_cons.mp hm with rfl | hm
        · exact hlt
        · exact hlt.trans (hfirst m hm)
      · rename_i hnlt
        refine List.pairwise_cons.mpr ⟨fun m hm => ?_, ih hrest⟩
        rcases eq_or_mem_of_mem_insert hm with rfl | hm
        · exact lt_of_le_of_ne (not_lt.mp hnlt) (Ne.symm hne)
        · exact hfirst m hm

/-- A member of a new name is one more. -/
theorem perm_insert (h : name ∉ ms.map Prod.fst) : (ms.insert name v).Perm ((name, v) :: ms) := by
  induction ms with
  | nil => exact .refl _
  | cons first rest ih =>
    rw [List.map_cons, List.mem_cons, not_or] at h
    rw [Members.insert, if_neg h.1]
    split
    · exact .refl _
    · exact ((ih h.2).cons first).trans (.swap _ _ rest)

theorem Sorted.ofList (pairs : Members) : (ofList pairs).Sorted := by
  have hfold (ms pairs : Members) (hms : ms.Sorted) :
      (pairs.foldl (fun ms m => ms.insert m.1 m.2) ms).Sorted := by
    induction pairs generalizing ms with
    | nil => exact hms
    | cons m rest ih => exact ih _ (hms.insert m.1 m.2)
  exact hfold [] pairs .nil

/-- Members with different names are those of the object that is made of them. -/
theorem perm_ofList (h : (pairs.map Prod.fst).Nodup) : (ofList pairs).Perm pairs := by
  have hfold (ms pairs : Members) (hnew : ((ms ++ pairs).map Prod.fst).Nodup) :
      (pairs.foldl (fun ms m => ms.insert m.1 m.2) ms).Perm (ms ++ pairs) := by
    induction pairs generalizing ms with
    | nil =>
      rw [List.append_nil]
      exact .refl _
    | cons m rest ih =>
      have hfresh : m.1 ∉ ms.map Prod.fst := by
        rw [List.map_append, List.nodup_append] at hnew
        exact fun hm => hnew.2.2 _ hm _ List.mem_cons_self rfl
      have hmoved : (ms.insert m.1 m.2 ++ rest).Perm (ms ++ m :: rest) :=
        ((perm_insert hfresh).append_right rest).trans List.perm_middle.symm
      exact (ih _ ((hmoved.map Prod.fst).nodup_iff.mpr hnew)).trans hmoved
  exact hfold [] pairs h

/-- Members in increasing order are the object that is made of them, in whatever order. -/
theorem eq_ofList (hms : ms.Sorted) (h : ms.Perm pairs) : ms = ofList pairs := by
  have hnames : (pairs.map Prod.fst).Nodup := (h.map Prod.fst).nodup_iff.mp hms.nodup_names
  refine (h.trans (perm_ofList hnames).symm).eq_of_pairwise (fun m m' _ _ hlt hgt => ?_) hms
    (Sorted.ofList pairs)
  exact absurd hgt hlt.asymm

end GridBench.Members
