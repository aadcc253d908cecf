/-
  GridBench.Proofs.Naming.Collision

  When two clients write under one storage key.  The three parts of a key stand
  behind one another with dashes between them, and only the partition in the
  middle is sure to hold none.  So a key can be read in two ways if one identity
  goes on where the other one stops, with the partition of the shorter one and
  maybe a piece of its element identifier (`Overruns`).  Main statement
  (`storageKey_collisions`): these are the only collisions; none of them is
  within one client, and none is between element identifiers without a dash.
-/
import GridBench.Element
import GridBench.Proofs.Naming.Keys

namespace GridBench

/-- The identity `d` is `c` with the partition `p` behind it, and with the beginning of the element
    identifier `i` if that is not needed for the partition `q`; what is left of `i` is the end of a
    key of `d`. -/
inductive Overruns (c : ClientIdentity) (p : Nat) (i : String) (d : ClientIdentity) (q : Nat)
    (j : String) : Prop
  | partition : d.text = c.text ++ "-" ++ toString p → i = toString q ++ "-" ++ j →
      Overruns c p i d q j
  | element (t : String) : d.text = c.text ++ "-" ++ toString p ++ "-" ++ t →
      i = t ++ "-" ++ toString q ++ "-" ++ j → Overruns c p i d q j

variable {c d : ClientIdentity} {p q : Nat} {i j : String}

/-- Where an identity overruns another one, the keys collide. -/
theorem Overruns.storageKey_eq (h : Overruns c p i d q j) :
    storageKey c p i = storageKey d q j := by
  cases h with
  | partition hd hi => simp only [storageKey, hd, hi, String.append_assoc]
  | element t hd hi => simp only [storageKey, hd, hi, String.append_assoc]

/-- The element identifier of the shorter identity holds a dash. -/
theorem Overruns.dash_mem (h : Overruns c p i d q j) : '-' ∈ i.toList := by
  cases h with
  | partition _ hi => simp [hi]
  | element t _ hi => simp [hi]

/-- A part without separators in front of a separator is the beginning of what stands in front of
    any later one. -/
theorem eq_or_exists_of_append_separator {α : Type} {a : α} {ps us xs ys : List α} (hp : a ∉ ps)
    (h : ps ++ a :: xs = us ++ a :: ys) :
    (us = ps ∧ xs = ys) ∨ ∃ ts, us = ps ++ a :: ts ∧ xs = ts ++ a :: ys := by
  by_cases hu : a ∈ us
  -- The first separator of `us` is the one behind `ps`.
  · obtain ⟨vs, ts, rfl, hv⟩ := List.eq_append_cons_of_mem hu
    rw [List.append_assoc, List.cons_append] at h
    obtain ⟨rfl, rfl⟩ := append_separator_inj hp hv h
    exact .inr ⟨ts, rfl, rfl⟩
  · obtain ⟨rfl, rfl⟩ := append_separator_inj hp hu h
    exact .inl ⟨rfl, rfl⟩

/-- Two readings of one key, where the second identity is at least as long as the first one. -/
theorem eq_or_overruns {us : List Char} (hd : d.text.toList = c.text.toList ++ us)
    (h : storageKey c p i = storageKey d q j) :
    (c = d ∧ p = q ∧ i = j) ∨ Overruns c p i d q j := by
  have hl := congrArg String.toList h
  rw [toList_storageKey, toList_storageKey, hd, List.append_assoc,
    List.append_cancel_left_eq] at hl
  cases us with
  -- The identities are the same.
  | nil =>
    rw [List.append_nil] at hd
    obtain rfl : c = d := by
      cases c
      cases d
      exact congrArg ClientIdentity.mk (String.toList_injective hd.symm)
    exact .inl ⟨rfl, storageKey_inj_of_client h⟩
  | cons x us =>
    obtain ⟨rfl, htail⟩ := List.cons.inj hl
    rcases eq_or_exists_of_append_separator (dash_not_mem_toString p) htail with
      ⟨rfl, hi⟩ | ⟨ts, rfl, hi⟩
    · refine .inr (.partition (String.toList_injective ?_) (String.toList_injective ?_))
      · simp [hd]
      · simp [hi]
    · refine .inr (.element (String.ofList ts) (String.toList_injective ?_)
        (String.toList_injective ?_))
      · simp [hd]
      · simp [hi]

/-- When two storage keys are equal. -/
theorem storageKey_eq_iff :
    storageKey c p i = storageKey d q j ↔
      (c = d ∧ p = q ∧ i = j) ∨ Overruns c p i d q j ∨ Overruns d q j c p i := by
  constructor
  · intro h
    have hl := congrArg String.toList h
    rw [toList_storageKey, toList_storageKey] at hl
    -- One of the two identities is the beginning of the other one.
    rcases List.append_eq_append_iff.mp hl with ⟨us, hd, -⟩ | ⟨us, hc, -⟩
    · rcases eq_or_overruns hd h with heq | hover
      · exact .inl heq
      · exact .inr (.inl hover)
    · rcases eq_or_overruns hc h.symm with ⟨rfl, rfl, rfl⟩ | hover
      · exact .inl ⟨rfl, rfl, rfl⟩
      · exact .inr (.inr hover)
  · rintro (⟨rfl, rfl, rfl⟩ | hover | hover)
    · rfl
    · exact hover.storageKey_eq
    · exact hover.storageKey_eq.symm

/-- The identifiers of the elements that the load runner writes hold no dash. -/
theorem dash_not_mem_key_of_populate {count size : Nat} {draws : Draws} {e : LoadElement}
    (he : e ∈ (LoadElement.populate count size draws).1) : '-' ∉ e.key.toList := by
  obtain ⟨n, -, rfl⟩ := List.mem_map.mp he
  exact dash_not_mem_toString n

/-- When two storage keys are equal, for any clients, partitions and element identifiers: if they
    have the same parts, or one identity overruns the other one.  So the keys of one client never
    collide, and those of two clients do not if no element identifier holds a dash, as none of the
    load runner's does.  But with dashes a client whose identity ends in a partition of another one
    collides with it. -/
theorem storageKey_collisions :
    (∀ c d p q i j, storageKey c p i = storageKey d q j ↔
      (c = d ∧ p = q ∧ i = j) ∨ Overruns c p i d q j ∨ Overruns d q j c p i) ∧
    (∀ c p q i j, storageKey c p i = storageKey c q j → p = q ∧ i = j) ∧
    (∀ c d p q i j, c ≠ d → '-' ∉ i.toList → '-' ∉ j.toList →
      storageKey c p i ≠ storageKey d q j) ∧
    (∀ count size draws, ∀ e ∈ (LoadElement.populate count size draws).1, '-' ∉ e.key.toList) ∧
    ∀ (c : ClientIdentity) (p q : Nat) (j : String), ⟨c.text ++ "-" ++ toString p⟩ ≠ c ∧
      storageKey c p (toString q ++ "-" ++ j) = storageKey ⟨c.text ++ "-" ++ toString p⟩ q j := by
  refine ⟨fun _ _ _ _ _ _ => storageKey_eq_iff, fun _ _ _ _ _ => storageKey_inj_of_client,
    fun c d p q i j hcd hi hj h => ?_, fun _ _ _ _ => dash_not_mem_key_of_populate,
    fun c p q j => ?_⟩
  · rcases storageKey_eq_iff.mp h with ⟨hc, -⟩ | hover | hover
    · exact hcd hc
    · exact hi hover.dash_mem
    · exact hj hover.dash_mem
  · refine ⟨fun hc => ?_, (Overruns.partition rfl rfl).storageKey_eq⟩
    have hlength := congrArg (fun c : ClientIdentity => c.text.toList.length) hc
    simp at hlength

/-- A client named after a partition of another one. -/
example : storageKey (ClientIdentity.ofConfigured "" "a").1 1 "2-x" =
    storageKey (ClientIdentity.ofConfigured "" "a-1").1 2 "x" := by decide

end GridBench
