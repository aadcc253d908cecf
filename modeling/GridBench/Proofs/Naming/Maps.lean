/-
  GridBench.Proofs.Naming.Maps

  When two maps of a plan have one name.  All names of a plan begin alike, with
  the prefix and the base name (`nameStem`), whatever these hold.  Behind them
  stand the partition and the client's identity, as far as the plan asks for
  them, each behind a dash (`nameTail`).  The partition is a numeral, so that the
  first dash behind it is the one in front of the identity.  Main statement:
  `mapName_eq_iff`.
-/
import GridBench.Proofs.Naming.Keys

namespace GridBench

variable {plan : RunPlan} {p q : Nat} {c d : ClientIdentity}

/-- What all names of a plan begin with. -/
def nameStem (plan : RunPlan) : String :=
  (if plan.usePrefix then plan.mapPrefix else "") ++ plan.mapBaseName

/-- What stands behind it in the name of one map. -/
def nameTail (plan : RunPlan) (p : Nat) (c : ClientIdentity) : String :=
  (if plan.appendMapIndex then "-" ++ toString p else "")
    ++ (if plan.appendClientId then "-" ++ c.text else "")

theorem mapName_eq_append (plan : RunPlan) (p : Nat) (c : ClientIdentity) :
    mapName plan p c = nameStem plan ++ nameTail plan p c := by
  rw [mapName, nameStem, nameTail, String.append_assoc, String.append_assoc]

theorem ClientIdentity.text_eq_iff : c.text = d.text ↔ c = d := by
  cases c
  cases d
  rw [ClientIdentity.mk.injEq]

/-- A partition and an identity can be read off what they make up together, whatever dashes and
    digits the identity holds. -/
theorem index_client_inj
    (h : "-" ++ toString p ++ ("-" ++ c.text) = "-" ++ toString q ++ ("-" ++ d.text)) :
    p = q ∧ c = d := by
  have hl := congrArg String.toList h
  simp only [String.toList_append, List.append_assoc] at hl
  obtain ⟨hp, hc⟩ := append_separator_inj (dash_not_mem_toString p) (dash_not_mem_toString q)
    (List.cons.inj hl).2
  exact ⟨toString_nat_inj (String.toList_injective hp),
    ClientIdentity.text_eq_iff.mp (String.toList_injective hc)⟩

/-- A tail tells as much of the partition and the identity as the plan puts into it. -/
theorem nameTail_eq_iff : nameTail plan p c = nameTail plan q d ↔
    (plan.appendMapIndex = false ∨ p = q) ∧ (plan.appendClientId = false ∨ c = d) := by
  unfold nameTail
  cases plan.appendMapIndex with
  | false =>
    cases plan.appendClientId with
    | false => exact iff_of_true rfl ⟨.inl rfl, .inl rfl⟩
    | true => simp [ClientIdentity.text_eq_iff]
  | true =>
    cases plan.appendClientId with
    | false => simp
    | true =>
      simp only [if_true, reduceCtorEq, false_or]
      exact ⟨index_client_inj, fun ⟨hp, hc⟩ => hp ▸ hc ▸ rfl⟩

/-- A plan names the maps of two partitions of two clients alike exactly if it leaves the partition
    out of its names or the partitions are equal, and it leaves the client out or the clients are
    equal, whatever dashes and digits the prefix, the base name and the identities hold. -/
theorem mapName_eq_iff (plan : RunPlan) (p q : Nat) (c d : ClientIdentity) :
    mapName plan p c = mapName plan q d ↔
      (plan.appendMapIndex = false ∨ p = q) ∧ (plan.appendClientId = false ∨ c = d) := by
  rw [mapName_eq_append, mapName_eq_append, String.append_right_inj]
  exact nameTail_eq_iff

end GridBench
