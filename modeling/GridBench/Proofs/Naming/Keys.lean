/-
  GridBench.Proofs.Naming.Keys

  When two keys are equal.  A partition is written as a decimal numeral, which
  holds no dash, so the partition can be read off a status key, off the storage
  keys of one client, and off a map's name if the map index is part of it.
  Storage keys of elements that are numbered determine the client as well,
  whatever dashes its identity holds.
-/
import Std.Data.String.ToNat
import GridBench.Naming
import GridBench.Status.Progress

namespace GridBench

/-! ## Separators -/

/-- What stands before the first separator, and what stands behind it. -/
theorem append_separator_inj {α : Type} {a : α} {ds es xs ys : List α} (hd : a ∉ ds) (he : a ∉ es)
    (h : ds ++ a :: xs = es ++ a :: ys) : ds = es ∧ xs = ys := by
  -- The separator stands in neither beginning, so both beginnings end together.
  induction ds generalizing es with
  | nil =>
    cases es with
    | nil => exact ⟨rfl, (List.cons.inj h).2⟩
    | cons e es =>
      have hae : a = e := (List.cons.inj h).1
      exact absurd (hae ▸ List.mem_cons_self) he
  | cons d ds ih =>
    cases es with
    | nil =>
      have hda : d = a := (List.cons.inj h).1
      exact absurd (hda ▸ List.mem_cons_self) hd
    | cons e es =>
      obtain ⟨rfl, ht⟩ := List.cons.inj h
      obtain ⟨rfl, hxy⟩ := ih (fun hm => hd (List.mem_cons_of_mem _ hm))
        (fun hm => he (List.mem_cons_of_mem _ hm)) ht
      exact ⟨rfl, hxy⟩

/-- What stands before the last separator, and what stands behind it. -/
theorem append_last_separator_inj {α : Type} {a : α} {ds es xs ys : List α} (hd : a ∉ ds)
    (he : a ∉ es) (h : xs ++ a :: ds = ys ++ a :: es) : xs = ys ∧ ds = es := by
  -- Read from the end, the last separator is the first one.
  have hr : ds.reverse ++ a :: xs.reverse = es.reverse ++ a :: ys.reverse := by
    simpa using congrArg List.reverse h
  obtain ⟨h₁, h₂⟩ := append_separator_inj (by simpa using hd) (by simpa using he) hr
  exact ⟨List.reverse_inj.mp h₂, List.reverse_inj.mp h₁⟩

theorem toString_nat_inj {m n : Nat} (h : toString m = toString n) : m = n :=
  Nat.repr_injective h

/-- A decimal numeral holds no dash. -/
theorem dash_not_mem_toString (n : Nat) : '-' ∉ (toString n).toList := by
  intro hm
  have hd : ('-').isDigit = true :=
    Nat.isDigit_of_mem_toDigits (by decide) (by decide) (Nat.toList_repr (n := n) ▸ hm)
  exact absurd hd (by decide)

/-! ## Status keys -/

theorem completedKey_inj {p q : Nat} (h : completedKey p = completedKey q) : p = q := by
  unfold completedKey at h
  rw [String.append_left_inj, String.append_right_inj] at h
  exact toString_nat_inj h

theorem failedKey_inj {p q : Nat} (h : failedKey p = failedKey q) : p = q := by
  unfold failedKey at h
  rw [String.append_left_inj, String.append_right_inj] at h
  exact toString_nat_inj h

/-- The two kinds of counts end differently. -/
theorem completedKey_ne_failedKey (p q : Nat) : completedKey p ≠ failedKey q := by
  intro h
  -- The numerals have any length, so the keys are compared from the end.
  have hr := congrArg (fun s : String => s.toList.reverse.take 9) h
  simp [completedKey, failedKey] at hr

/-- The keys that every run publishes before its workers start. -/
def generalKeys : List String := [numMapsKey, numRunsKey, totalRunsKey, runnerFinishedKey]

/-- A key that begins like the name of a partition is none of them. -/
theorem not_mem_generalKeys {key : String} (h : key.toList.head? = some 'p') :
    key ∉ generalKeys := by
  intro hm
  simp only [generalKeys, List.mem_cons, List.not_mem_nil, or_false] at hm
  rcases hm with rfl | rfl | rfl | rfl <;> exact absurd h (by decide)

theorem completedKey_not_mem_generalKeys (p : Nat) : completedKey p ∉ generalKeys :=
  not_mem_generalKeys (by simp [completedKey])

theorem failedKey_not_mem_generalKeys (p : Nat) : failedKey p ∉ generalKeys :=
  not_mem_generalKeys (by simp [failedKey])

/-! ## Names of maps -/

/-- Two partitions whose maps have the map index in their names have two maps. -/
theorem mapName_inj {plan : RunPlan} (hindex : plan.appendMapIndex = true) {p q : Nat}
    {client : ClientIdentity} (h : mapName plan p client = mapName plan q client) : p = q := by
  simp only [mapName, hindex, if_true, String.append_left_inj, String.append_right_inj] at h
  exact toString_nat_inj h

/-! ## Storage keys -/

theorem toList_storageKey (client : ClientIdentity) (partition : Nat) (elementId : String) :
    (storageKey client partition elementId).toList =
      client.text.toList ++ '-' :: ((toString partition).toList ++ '-' :: elementId.toList) := by
  simp [storageKey]

/-- The keys of one client tell partition and element apart. -/
theorem storageKey_inj_of_client {client : ClientIdentity} {p q : Nat} {i j : String}
    (h : storageKey client p i = storageKey client q j) : p = q ∧ i = j := by
  have hl := congrArg String.toList h
  rw [toList_storageKey, toList_storageKey, List.append_cancel_left_eq] at hl
  obtain ⟨hp, hi⟩ := append_separator_inj (dash_not_mem_toString p) (dash_not_mem_toString q)
    (List.cons.inj hl).2
  exact ⟨toString_nat_inj (String.toList_injective hp), String.toList_injective hi⟩

/-- The keys of numbered elements tell client, partition and element apart. -/
theorem storageKey_inj_of_numbered {c d : ClientIdentity} {p q i j : Nat}
    (h : storageKey c p (toString i) = storageKey d q (toString j)) : c = d ∧ p = q ∧ i = j := by
  have hl := congrArg String.toList h
  -- The identity may hold dashes, so the key is taken apart from its end: first the element, then
  -- the partition.
  rw [toList_storageKey, toList_storageKey, ← List.cons_append, ← List.append_assoc,
    ← List.cons_append, ← List.append_assoc] at hl
  obtain ⟨hl, hi⟩ := append_last_separator_inj (dash_not_mem_toString i)
    (dash_not_mem_toString j) hl
  obtain ⟨hc, hp⟩ := append_last_separator_inj (dash_not_mem_toString p)
    (dash_not_mem_toString q) hl
  have hcd : c = d := by
    cases c
    cases d
    exact congrArg ClientIdentity.mk (String.toList_injective hc)
  exact ⟨hcd, toString_nat_inj (String.toList_injective hp),
    toString_nat_inj (String.toList_injective hi)⟩

end GridBench
