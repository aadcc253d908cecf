/-
  GridBench.Proofs.Element.Populate

  The elements that the load runner makes up.  They are numbered, and share one
  payload, which is drawn character by character (`drawPayload_eq`): each draw
  makes one letter or digit, whatever the other draws are, and any text of them
  may come out (`exists_payloadOf_eq`).  The numerals keep the elements of one
  list apart, and behind a client and a partition those of different lists
  (`disjoint_storedKeys_iff`).  Main statement: `populate_shares_payload`.
-/
import Mathlib.Data.List.GetD
import Mathlib.Data.List.Nodup
import GridBench.Proofs.Naming.Collision

namespace GridBench

/-! ## The payload -/

/-- A draw stands for an ASCII letter or digit. -/
theorem DrawRule.isAlphanum_letter (rule : DrawRule) (draw : Nat) :
    (rule.letter draw).isAlphanum = true := by
  have hall : alphanumerics.all Char.isAlphanum = true := by decide
  exact List.all_eq_true.mp hall _ (rule.letter_mem draw)

namespace Draws

/-- The letter or digit that the draw with the given number stands for, from the next one on. -/
def letter (d : Draws) (i : Nat) : Char := d.rule.letter (d.source (d.used + i))

@[simp] theorem letter_next (d : Draws) (i : Nat) : d.next.2.letter i = d.letter (i + 1) := by
  have hsame : d.used + 1 + i = d.used + (i + 1) := by omega
  show d.rule.letter (d.source (d.used + 1 + i)) = _
  rw [hsame]
  rfl

/-- The stream behind a number of draws. -/
def skip (d : Draws) (n : Nat) : Draws := { d with used := d.used + n }

@[simp] theorem skip_next (d : Draws) (n : Nat) : d.next.2.skip n = d.skip (n + 1) := by
  have hsame : d.used + 1 + n = d.used + (n + 1) := by omega
  show { d with used := d.used + 1 + n } = _
  rw [hsame]
  rfl

end Draws

namespace LoadElement

theorem drawPayload_succ (size : Nat) (d : Draws) :
    drawPayload (size + 1) d = (d.letter 0 :: (drawPayload size d.next.2).1,
      (drawPayload size d.next.2).2) := rfl

/-- The characters of a payload are made of the next draws, one of each, and nothing else is
    drawn. -/
theorem drawPayload_eq (size : Nat) (d : Draws) :
    drawPayload size d = ((List.range size).map d.letter, d.skip size) := by
  -- One draw is taken off the front; the others are those of the stream behind it.
  induction size generalizing d with
  | zero => rfl
  | succ size ih =>
    have hletters : d.next.2.letter = d.letter ∘ Nat.succ := funext d.letter_next
    rw [drawPayload_succ, ih, List.range_succ_eq_map, List.map_cons, List.map_map, hletters,
      Draws.skip_next]

/-- The payload of the given size that is drawn from a stream. -/
def payloadOf (size : Nat) (d : Draws) : String := String.ofList ((List.range size).map d.letter)

@[simp] theorem toList_payloadOf (size : Nat) (d : Draws) :
    (payloadOf size d).toList = (List.range size).map d.letter := String.toList_ofList

@[simp] theorem length_payloadOf (size : Nat) (d : Draws) : (payloadOf size d).length = size := by
  rw [← String.length_toList, toList_payloadOf, List.length_map, List.length_range]

theorem isAlphanum_payloadOf {size : Nat} {d : Draws} {ch : Char}
    (h : ch ∈ (payloadOf size d).toList) : ch.isAlphanum = true := by
  rw [toList_payloadOf] at h
  obtain ⟨i, -, rfl⟩ := List.mem_map.mp h
  exact d.rule.isAlphanum_letter _

/-- Only one draw has a say in a character. -/
theorem getElem?_payloadOf {size i : Nat} (h : i < size) (d : Draws) :
    (payloadOf size d).toList[i]? = some (d.letter i) := by
  rw [toList_payloadOf, List.getElem?_map, List.getElem?_range h]
  rfl

/-- Any text of letters and digits is a payload, for the right draws. -/
theorem exists_payloadOf_eq (d : Draws) {text : String}
    (h : ∀ ch ∈ text.toList, ch ∈ alphanumerics) :
    ∃ source, payloadOf text.length { d with source := source } = text := by
  choose! draw hdraw using d.rule.letter_attained
  -- Each place of the text draws what comes to its character.
  refine ⟨fun i => (draw (text.toList.getD (i - d.used) 'A')).toNat,
    String.toList_inj.mp (List.ext_getElem ?_ fun i _ hi => ?_)⟩
  · rw [String.length_toList, String.length_toList, length_payloadOf]
  · simp only [toList_payloadOf, List.getElem_map, List.getElem_range]
    show d.rule.letter (draw (text.toList.getD (d.used + i - d.used) 'A')).toNat = _
    rw [Nat.add_sub_cancel_left, List.getD_eq_getElem _ _ hi]
    exact hdraw _ (h _ (List.getElem_mem hi))

/-! ## The elements -/

theorem populate_eq (count size : Nat) (d : Draws) :
    populate count size d =
      ((List.range count).map fun i => ⟨toString i, payloadOf size d⟩, d.skip size) := by
  rw [populate, drawPayload_eq]
  rfl

/-- The numbers of the elements, in their order. -/
theorem keys_populate (count size : Nat) (d : Draws) :
    (populate count size d).1.map key = (List.range count).map fun i => toString i := by
  rw [populate_eq, List.map_map]
  rfl

theorem nodup_keys (count size : Nat) (d : Draws) : ((populate count size d).1.map key).Nodup := by
  rw [keys_populate]
  exact List.nodup_range.map fun i j => toString_nat_inj

theorem mem_populate {count size : Nat} {d : Draws} {e : LoadElement}
    (h : e ∈ (populate count size d).1) :
    ∃ i < count, e = ⟨toString i, payloadOf size d⟩ := by
  rw [populate_eq] at h
  obtain ⟨i, hi, rfl⟩ := List.mem_map.mp h
  exact ⟨i, List.mem_range.mp hi, rfl⟩

/-! ## Their keys -/

/-- The keys under which a client stores elements in a partition. -/
def storedKeys (c : ClientIdentity) (p : Nat) (es : List LoadElement) : List String :=
  es.map fun e => storageKey c p e.key

theorem mem_storedKeys_populate {c : ClientIdentity} {p count size : Nat} {d : Draws}
    {key : String} : key ∈ storedKeys c p (populate count size d).1 ↔
      ∃ i < count, key = storageKey c p (toString i) := by
  have hkeys : storedKeys c p (populate count size d).1 =
      (List.range count).map fun i => storageKey c p (toString i) := by
    rw [storedKeys, populate_eq, List.map_map]
    rfl
  rw [hkeys, List.mem_map]
  simp only [List.mem_range, eq_comm]

/-- The elements of two lists are stored under different keys, unless the clients and the partitions
    are the same and there are elements on both sides. -/
theorem disjoint_storedKeys_iff {c c' : ClientIdentity} {p p' count count' size size' : Nat}
    {d d' : Draws} :
    (storedKeys c p (populate count size d).1).Disjoint
        (storedKeys c' p' (populate count' size' d').1) ↔
      (c = c' → p = p' → count = 0 ∨ count' = 0) := by
  rw [List.disjoint_left]
  constructor
  · rintro h rfl rfl
    by_contra hboth
    obtain ⟨hcount, hcount'⟩ := not_or.mp hboth
    -- Both lists begin with an element that has the number zero.
    have hzero {n size : Nat} {d : Draws} (hn : n ≠ 0) :
        storageKey c p (toString 0) ∈ storedKeys c p (populate n size d).1 :=
      mem_storedKeys_populate.mpr ⟨0, Nat.pos_of_ne_zero hn, rfl⟩
    exact h (hzero hcount) (hzero hcount')
  · intro h key hkey hkey'
    obtain ⟨i, hi, rfl⟩ := mem_storedKeys_populate.mp hkey
    obtain ⟨j, hj, heq⟩ := mem_storedKeys_populate.mp hkey'
    obtain ⟨hc, hp, -⟩ := storageKey_inj_of_numbered heq
    rcases h hc hp with hzero | hzero
    · exact absurd hi (by rw [hzero]; exact Nat.not_lt_zero i)
    · exact absurd hj (by rw [hzero]; exact Nat.not_lt_zero j)

theorem nodup_storedKeys (c : ClientIdentity) (p count size : Nat) (d : Draws) :
    (storedKeys c p (populate count size d).1).Nodup := by
  have hkeys : storedKeys c p (populate count size d).1 =
      ((populate count size d).1.map key).map (storageKey c p) := by
    rw [List.map_map]
    rfl
  rw [hkeys]
  exact (nodup_keys count size d).map fun i j h => (storageKey_inj_of_client h).2

/-- The elements that are made up, for any number of them, any size and any draws, whatever these
    come to: there are as many as are asked for, identified by the numerals from zero on in their
    order, which are different and hold no dash, and all with one payload.  The payload has the size
    asked for and consists of ASCII letters and digits, each of which one draw decides, and it may be
    any such text; as many draws are taken, however many elements there are.  The elements of two
    such lists are stored under different keys, unless the client and the partition are the same;
    those of one list always are. -/
theorem populate_shares_payload (count size : Nat) (d : Draws) :
    (populate count size d).1.length = count ∧
    ((populate count size d).1.map fun e => e.element.id) =
      (List.range count).map (fun i => .ok (toString i)) ∧
    ((populate count size d).1.map key).Nodup ∧
    (∀ e ∈ (populate count size d).1, '-' ∉ e.key.toList) ∧
    (∃ payload : String, (∀ e ∈ (populate count size d).1, e.payload = payload) ∧
      payload.length = size ∧ (∀ ch ∈ payload.toList, ch.isAlphanum = true) ∧
      ∀ i < size, payload.toList[i]? = some (d.rule.letter (d.source (d.used + i)))) ∧
    (∀ text : String, text.length = size → (∀ ch ∈ text.toList, ch ∈ alphanumerics) →
      ∃ source, ∀ e ∈ (populate count size { d with source := source }).1, e.payload = text) ∧
    (populate count size d).2 = { d with used := d.used + size } ∧
    (∀ c p, (storedKeys c p (populate count size d).1).Nodup) ∧
    ∀ c c' p p' count' size' d',
      (storedKeys c p (populate count size d).1).Disjoint
          (storedKeys c' p' (populate count' size' d').1) ↔
        (c = c' → p = p' → count = 0 ∨ count' = 0) := by
  refine ⟨?_, ?_, nodup_keys count size d, ?_, ⟨payloadOf size d, ?_, length_payloadOf size d,
    fun ch => isAlphanum_payloadOf, fun i hi => getElem?_payloadOf hi d⟩, ?_, ?_,
    fun c p => nodup_storedKeys c p count size d, fun _ _ _ _ _ _ _ => disjoint_storedKeys_iff⟩
  · rw [populate_eq, List.length_map, List.length_range]
  · rw [populate_eq, List.map_map]
    rfl
  · intro e he
    exact dash_not_mem_key_of_populate he
  · intro e he
    obtain ⟨i, -, rfl⟩ := mem_populate he
    rfl
  · rintro text rfl htext
    obtain ⟨source, hsource⟩ := exists_payloadOf_eq d htext
    refine ⟨source, fun e he => ?_⟩
    obtain ⟨i, -, rfl⟩ := mem_populate he
    exact hsource
  · rw [populate_eq]
    rfl

/-- Three draws, which stand for the first letter, for the last digit, and for the first letter
    again. -/
def sampleDraws : Draws := .cyclic [0, 61, 62]

/-- The middle character of the payload is the digit.  Without any element the three draws are taken
    all the same.  The identities and partitions of two clients that begin alike keep their elements
    apart, while two lists of one client in one partition collide. -/
theorem populate_shares_payload_sample :
    (∃ payload : String, (∀ e ∈ (populate 2 3 sampleDraws).1, e.payload = payload) ∧
      payload.toList[1]? = some '9') ∧
    (populate 0 3 sampleDraws).2.used = 3 ∧
    (storedKeys ⟨"a"⟩ 1 (populate 2 3 sampleDraws).1).Disjoint
      (storedKeys ⟨"a-1"⟩ 1 (populate 2 3 sampleDraws).1) ∧
    ¬(storedKeys ⟨"a"⟩ 1 (populate 2 3 sampleDraws).1).Disjoint
      (storedKeys ⟨"a"⟩ 1 (populate 1 0 sampleDraws).1) := by
  obtain ⟨-, -, -, -, ⟨payload, hshared, -, -, hletters⟩, -, -, -, hdisjoint⟩ :=
    populate_shares_payload 2 3 sampleDraws
  obtain ⟨-, -, -, -, -, -, hnone, -⟩ := populate_shares_payload 0 3 sampleDraws
  refine ⟨⟨payload, hshared, ?_⟩, ?_, (hdisjoint _ _ _ _ _ _ _).mpr ?_, fun h => ?_⟩
  · rw [hletters 1 (by decide)]
    decide
  · rw [hnone]
    rfl
  · intro hclients
    exact absurd hclients (by decide)
  · rcases (hdisjoint _ _ _ _ _ _ _).mp h rfl rfl with htwo | hone
    · exact absurd htwo (by decide)
    · exact absurd hone (by decide)

end LoadElement

end GridBench
