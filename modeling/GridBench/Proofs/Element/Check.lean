/-
  GridBench.Proofs.Element.Check

  Which values a record's check accepts.  An object is accepted if it has all
  members of the record and those it has under their names are of their types,
  whatever other members it has (`misfit?_object_eq_none_iff`); an array is
  accepted if its items are of the types of the members one by one
  (`misfit?_array_eq_none_iff`); nothing else is.  For load elements this makes
  the values from which an element can be read, and no others.  Main statement:
  `LoadElement.check_accepts`.
-/
import Mathlib.Data.List.Forall2
import GridBench.Element
import GridBench.Store.Memory
import GridBench.Proofs.Json.Members

namespace GridBench

/-! ## Records -/

namespace MemberType

theorem misfit?_text_eq_none_iff (v : Json) :
    MemberType.text.misfit? v = none ↔ ∃ s, v = .text s := by
  cases v with
  | text s => exact ⟨fun _ => ⟨s, rfl⟩, fun _ => rfl⟩
  | integer i => cases i <;> simp [misfit?, Form.Shape.ofJson, Form.Shape.text, Datum.ofJson,
      Datum.ofInt]
  | null | bool _ | real _ | array _ | object _ =>
    simp [misfit?, Form.Shape.ofJson, Form.Shape.text, Datum.ofJson]

end MemberType

namespace RecordShape

variable (r : RecordShape)

/-- A value of the shape of a record is an object or an array. -/
theorem misfit?_ne_none {v : Json} (hobject : ∀ ms, v ≠ .object ms) (harray : ∀ vs, v ≠ .array vs) :
    r.misfit? v ≠ none := by
  cases v with
  | object ms => exact absurd rfl (hobject ms)
  | array vs => exact absurd rfl (harray vs)
  | null | bool _ | integer _ | real _ | text _ => simp [misfit?]

theorem itemsMisfit?_eq_none_iff (length taken : Nat) (ms : List (String × MemberType))
    (vs : List Json) :
    r.itemsMisfit? length taken ms vs = none ↔
      List.Forall₂ (fun m v => m.2.misfit? v = none) ms vs := by
  induction ms generalizing taken vs with
  | nil => cases vs <;> simp [itemsMisfit?]
  | cons m ms ih =>
    cases vs with
    | nil => simp [itemsMisfit?]
    | cons v vs =>
      rw [itemsMisfit?, List.forall₂_cons]
      -- The first item that does not fit decides.
      cases hv : m.2.misfit? v with
      | some cause => simp
      | none => simp [ih]

theorem misfit?_array_eq_none_iff (vs : List Json) :
    r.misfit? (.array vs) = none ↔
      List.Forall₂ (fun m v => m.2.misfit? v = none) r.members vs :=
  r.itemsMisfit?_eq_none_iff vs.length 0 r.members vs

/-- No member is missing exactly if each is there. -/
theorem missing?_eq_none_iff (ms : List (String × Json)) :
    r.missing? ms = none ↔ ∀ m ∈ r.members, ∃ v, (m.1, v) ∈ ms := by
  rw [missing?, Option.map_eq_none_iff, List.find?_eq_none]
  refine forall₂_congr fun m _ => ?_
  rw [Option.isNone_iff_eq_none, List.lookup_eq_none_iff]
  constructor
  · intro h
    by_contra habsent
    refine h fun n hn => ?_
    have hne : m.1 ≠ n.1 := fun heq => habsent ⟨n.2, heq ▸ hn⟩
    simpa using hne
  · rintro ⟨v, hv⟩ h
    simpa using h (m.1, v) hv

/-- An object has the shape if what it has of the record's members is of their types, and it has all
    of them. -/
theorem misfit?_object_eq_none_iff (ms : List (String × Json)) :
    r.misfit? (.object ms) = none ↔
      (∀ n v t, (n, v) ∈ ms → r.members.lookup n = some t → t.misfit? v = none) ∧
        ∀ m ∈ r.members, ∃ v, (m.1, v) ∈ ms := by
  rw [misfit?, Option.or_eq_none_iff, r.missing?_eq_none_iff, membersMisfit?,
    List.findSome?_eq_none_iff]
  refine and_congr_left fun _ => ?_
  constructor
  · intro h n v t hmem hlookup
    have hnone : (r.members.lookup n).bind (fun t => t.misfit? v) = none := h (n, v) hmem
    rw [hlookup] at hnone
    exact hnone
  · rintro h ⟨n, v⟩ hmem
    show (r.members.lookup n).bind (fun t => t.misfit? v) = none
    cases hlookup : r.members.lookup n with
    | none => rfl
    | some t => exact h n v t hmem hlookup

theorem check_eq_ok_iff (v : Json) : r.check v = .ok () ↔ r.misfit? v = none := by
  unfold check
  cases r.misfit? v <;> simp

/-- A value that is not accepted is refused with the reason. -/
theorem exists_refusal {v : Json} (h : r.check v ≠ .ok ()) :
    ∃ m : Misfit, r.check v = .error (.deserialization
      ("value retrieved from map is not a valid " ++ r.fullName ++ ": " ++ m.message .json)) := by
  rw [Ne, check_eq_ok_iff] at h
  obtain ⟨m, hm⟩ := Option.ne_none_iff_exists'.mp h
  exact ⟨m, by rw [check, hm]⟩

end RecordShape

/-! ## Members -/

namespace Members

variable {ms : Members} {name : String}

/-- In an object no two members have one name, so that looking a name up finds the one member. -/
theorem Sorted.get?_eq_some_iff (h : ms.Sorted) {v : Json} :
    ms.get? name = some v ↔ (name, v) ∈ ms := by
  rw [get?, List.lookup_eq_some_iff]
  constructor
  · rintro ⟨before, after, rfl, -⟩
    exact List.mem_append_right _ List.mem_cons_self
  · intro hmem
    obtain ⟨before, after, rfl⟩ := List.append_of_mem hmem
    refine ⟨before, after, rfl, fun m hm => ?_⟩
    rw [Sorted, List.pairwise_append] at h
    have hlt : m.1 < name := h.2.2 m hm _ List.mem_cons_self
    simpa using hlt.ne'

/-- Whether there is something under a name, and it is text. -/
def HasText (ms : Members) (name : String) : Prop :=
  (∃ v, (name, v) ∈ ms) ∧ ∀ v, (name, v) ∈ ms → ∃ s, v = .text s

theorem Sorted.hasText_iff (h : ms.Sorted) :
    ms.HasText name ↔ ∃ s, ms.get? name = some (.text s) := by
  constructor
  · rintro ⟨⟨v, hv⟩, htext⟩
    obtain ⟨s, rfl⟩ := htext v hv
    exact ⟨s, h.get?_eq_some_iff.mpr hv⟩
  · rintro ⟨s, hs⟩
    refine ⟨⟨_, h.get?_eq_some_iff.mp hs⟩, fun v hv => ⟨s, ?_⟩⟩
    exact Option.some.inj ((h.get?_eq_some_iff.mpr hv).symm.trans hs)

end Members

/-! ## Load elements -/

namespace LoadElement

/-- The values that stand for load elements: objects that have both members as texts, among any
    others, and arrays of exactly two texts. -/
inductive Accepted : Json → Prop
  | object {ms : Members} : ms.HasText "key" → ms.HasText "payload" → Accepted (.object ms)
  | array (key payload : String) : Accepted (.array [.text key, .text payload])

/-- The element that a value stands for. -/
def ofJson? : Json → Option LoadElement
  | .object ms =>
    match Members.get? ms "key", Members.get? ms "payload" with
    | some (.text key), some (.text payload) => some ⟨key, payload⟩
    | _, _ => none
  | .array [.text key, .text payload] => some ⟨key, payload⟩
  | _ => none

theorem ofJson?_toJson (e : LoadElement) : ofJson? e.toJson = some e := rfl

theorem ofJson?_object_eq_some_iff (ms : Members) (e : LoadElement) :
    ofJson? (.object ms) = some e ↔
      ms.get? "key" = some (.text e.key) ∧ ms.get? "payload" = some (.text e.payload) := by
  rw [ofJson?]
  constructor
  · intro h
    split at h
    · rename_i hkey hpayload
      cases h
      exact ⟨hkey, hpayload⟩
    · cases h
  · rintro ⟨hkey, hpayload⟩
    rw [hkey, hpayload]

/-- The types of the members, by name. -/
theorem lookup_members (name : String) (t : MemberType) :
    shape.members.lookup name = some t ↔ (name = "key" ∨ name = "payload") ∧ t = .text := by
  rw [shape, List.lookup_cons, List.lookup_cons, List.lookup_nil]
  by_cases hkey : name = "key"
  · subst hkey
    simp [eq_comm]
  · by_cases hpayload : name = "payload"
    · subst hpayload
      simp [eq_comm]
    · have hnokey : (name == "key") = false := beq_eq_false_iff_ne.mpr hkey
      have hnopayload : (name == "payload") = false := beq_eq_false_iff_ne.mpr hpayload
      simp [hkey, hpayload, hnokey, hnopayload]

theorem misfit?_object_iff (ms : Members) :
    shape.misfit? (.object ms) = none ↔ ms.HasText "key" ∧ ms.HasText "payload" := by
  rw [RecordShape.misfit?_object_eq_none_iff]
  constructor
  · rintro ⟨hfits, hthere⟩
    have hname (name : String) (hnamed : name = "key" ∨ name = "payload")
        (hmem : (name, MemberType.text) ∈ shape.members) : ms.HasText name :=
      ⟨hthere _ hmem, fun v hv => (MemberType.misfit?_text_eq_none_iff v).mp
        (hfits name v .text hv ((lookup_members _ _).mpr ⟨hnamed, rfl⟩))⟩
    exact ⟨hname "key" (.inl rfl) (by decide), hname "payload" (.inr rfl) (by decide)⟩
  · rintro ⟨hkey, hpayload⟩
    constructor
    · intro n v t hmem hlookup
      obtain ⟨hn | hn, rfl⟩ := (lookup_members n t).mp hlookup
      · exact (MemberType.misfit?_text_eq_none_iff v).mpr (hkey.2 v (hn ▸ hmem))
      · exact (MemberType.misfit?_text_eq_none_iff v).mpr (hpayload.2 v (hn ▸ hmem))
    · intro m hm
      rcases List.mem_pair.mp hm with rfl | rfl
      · exact hkey.1
      · exact hpayload.1

theorem misfit?_array_iff (vs : List Json) :
    shape.misfit? (.array vs) = none ↔ ∃ key payload, vs = [.text key, .text payload] := by
  rw [RecordShape.misfit?_array_eq_none_iff, shape]
  constructor
  · intro h
    obtain ⟨v, rest, hv, hrest, rfl⟩ := List.forall₂_cons_left_iff.mp h
    obtain ⟨v', rest', hv', hrest', rfl⟩ := List.forall₂_cons_left_iff.mp hrest
    obtain rfl := List.forall₂_nil_left_iff.mp hrest'
    obtain ⟨key, rfl⟩ := (MemberType.misfit?_text_eq_none_iff v).mp hv
    obtain ⟨payload, rfl⟩ := (MemberType.misfit?_text_eq_none_iff v').mp hv'
    exact ⟨key, payload, rfl⟩
  · rintro ⟨key, payload, rfl⟩
    exact .cons rfl (.cons rfl .nil)

theorem misfit?_iff_accepted (v : Json) : shape.misfit? v = none ↔ Accepted v := by
  constructor
  · intro h
    cases v with
    | object ms =>
      obtain ⟨hkey, hpayload⟩ := (misfit?_object_iff ms).mp h
      exact .object hkey hpayload
    | array vs =>
      obtain ⟨key, payload, rfl⟩ := (misfit?_array_iff vs).mp h
      exact .array key payload
    | null | bool _ | integer _ | real _ | text _ =>
      exact absurd h (shape.misfit?_ne_none nofun nofun)
  · intro h
    cases h with
    | object hkey hpayload => exact (misfit?_object_iff _).mpr ⟨hkey, hpayload⟩
    | array key payload => exact (misfit?_array_iff _).mpr ⟨key, payload, rfl⟩

/-- In the objects and arrays that there are, what is accepted is what an element can be read
    from. -/
theorem accepted_iff_exists_ofJson? {v : Json}
    (hsorted : ∀ ms : Members, v = .object ms → ms.Sorted) :
    Accepted v ↔ ∃ e, ofJson? v = some e := by
  constructor
  · intro h
    cases h with
    | @object ms hkey hpayload =>
      obtain ⟨key, hkey⟩ := (hsorted ms rfl).hasText_iff.mp hkey
      obtain ⟨payload, hpayload⟩ := (hsorted ms rfl).hasText_iff.mp hpayload
      exact ⟨⟨key, payload⟩, (ofJson?_object_eq_some_iff ms _).mpr ⟨hkey, hpayload⟩⟩
    | array key payload => exact ⟨⟨key, payload⟩, rfl⟩
  · rintro ⟨e, he⟩
    cases v with
    | object ms =>
      obtain ⟨hkey, hpayload⟩ := (ofJson?_object_eq_some_iff ms e).mp he
      exact .object ((hsorted ms rfl).hasText_iff.mpr ⟨_, hkey⟩)
        ((hsorted ms rfl).hasText_iff.mpr ⟨_, hpayload⟩)
    | array vs =>
      unfold ofJson? at he
      split at he
      · cases ‹Json.array vs = _›
      · rename_i heq
        cases heq
        exact .array _ _
      · cases he
    | null | bool _ | integer _ | real _ | text _ => cases he

/-- The check accepts the values that stand for elements and refuses every other one as not
    deserialisable, with the reason. -/
theorem check_cases (v : Json) :
    (Accepted v ∧ shape.check v = .ok ()) ∨
      ¬Accepted v ∧ ∃ m : Misfit, shape.check v = .error (.deserialization
        ("value retrieved from map is not a valid " ++ shape.fullName ++ ": "
          ++ m.message .json)) := by
  by_cases h : Accepted v
  · exact .inl ⟨h, (shape.check_eq_ok_iff v).mpr ((misfit?_iff_accepted v).mpr h)⟩
  · refine .inr ⟨h, shape.exists_refusal fun hok => h ?_⟩
    exact (misfit?_iff_accepted v).mp ((shape.check_eq_ok_iff v).mp hok)

theorem not_accepted_corrupted : ¬Accepted MemoryStore.corrupted := nofun

end LoadElement

namespace MemoryStore

/-- What a get answers while corruption is due. -/
theorem call_get_corrupt {s : MemoryStore} {h : Handle} (hlive : s.isReleased h = false)
    (hevict : s.faults.evictGets = 0) (hcorrupt : 0 < s.faults.corruptGets) (key : String) :
    (s.call h (.get key)).1 = .ok (some corrupted) := by
  have hkept : ({ s with calls := s.calls.note (.get key) } : MemoryStore).isReleased h = false :=
    hlive
  unfold call
  simp only [hkept, Bool.false_eq_true, if_false]
  rw [readValue, if_neg (by simp [hevict]), if_pos hcorrupt]

end MemoryStore

namespace LoadElement

/-- The acceptance language of the check: objects that have a key and a payload that are texts,
    whatever other members they have, and arrays of exactly two texts.  Anything else is refused as
    not deserialisable.  In an object, which has its members by name, that is to say that the two
    names are found and are texts, so that an element can be read exactly from what is accepted.
    The serialised form of an element is accepted and read as that element, and what a corrupted
    read answers is refused. -/
theorem check_accepts :
    (∀ v, shape.check v = .ok () ↔ Accepted v) ∧
    (∀ v, ¬Accepted v → ∃ m : Misfit, shape.check v = .error (.deserialization
      ("value retrieved from map is not a valid " ++ shape.fullName ++ ": " ++ m.message .json))) ∧
    (∀ ms : Members, ms.Sorted → (shape.check (.object ms) = .ok () ↔
      ∃ key payload, ms.get? "key" = some (.text key) ∧ ms.get? "payload" = some (.text payload))) ∧
    (∀ v, (∀ ms : Members, v = .object ms → ms.Sorted) →
      (shape.check v = .ok () ↔ ∃ e, ofJson? v = some e)) ∧
    (∀ e : LoadElement, shape.check e.toJson = .ok () ∧ ofJson? e.toJson = some e) ∧
    ∀ (s : MemoryStore) (h : Handle) (key : String), s.isReleased h = false →
      s.faults.evictGets = 0 → 0 < s.faults.corruptGets →
      ∃ v problem, (s.call h (.get key)).1 = .ok (some v) ∧
        shape.check v = .error (.deserialization problem) := by
  have hlanguage (v : Json) : shape.check v = .ok () ↔ Accepted v := by
    rcases check_cases v with ⟨h, hok⟩ | ⟨h, m, hrefused⟩
    · exact iff_of_true hok h
    · exact iff_of_false (by rw [hrefused]; nofun) h
  have hrefusal (v : Json) (h : ¬Accepted v) : ∃ m : Misfit, shape.check v = .error
      (.deserialization ("value retrieved from map is not a valid " ++ shape.fullName ++ ": "
        ++ m.message .json)) :=
    (check_cases v).elim (fun hv => absurd hv.1 h) fun hv => hv.2
  refine ⟨hlanguage, hrefusal, ?_, ?_, ?_, ?_⟩
  · intro ms hms
    rw [shape.check_eq_ok_iff, misfit?_object_iff, hms.hasText_iff, hms.hasText_iff]
    exact exists_and_exists_comm
  · intro v hv
    exact (hlanguage v).trans (accepted_iff_exists_ofJson? hv)
  · intro e
    have hread : ofJson? e.toJson = some e := e.ofJson?_toJson
    exact ⟨rfl, hread⟩
  · intro s h key hlive hevict hcorrupt
    obtain ⟨m, hm⟩ := hrefusal _ not_accepted_corrupted
    exact ⟨_, _, s.call_get_corrupt hlive hevict hcorrupt key, hm⟩

/-- An element with one member more. -/
def sampleMembers : Members := [("extra", .null), ("key", .text "0"), ("payload", .text "x")]

theorem sorted_sampleMembers : sampleMembers.Sorted := by
  refine .cons (fun m hm => ?_) (.cons (fun m hm => ?_) (List.pairwise_singleton _ _))
  · rcases List.mem_pair.mp hm with rfl | rfl <;> decide
  · obtain rfl := List.mem_singleton.mp hm
    decide

/-- The member more is passed over, three texts are refused, and so is what a store answers that is
    to corrupt the next read. -/
theorem check_accepts_samples :
    (∃ e, ofJson? (.object sampleMembers) = some e) ∧
    (∃ m : Misfit, shape.check (.array [.text "0", .text "x", .text "y"]) = .error (.deserialization
      ("value retrieved from map is not a valid " ++ shape.fullName ++ ": " ++ m.message .json))) ∧
    ∃ v problem,
      (MemoryStore.call { faults := { corruptGets := 1 } } ⟨0, "m"⟩ (.get "0")).1 = .ok (some v) ∧
        shape.check v = .error (.deserialization problem) := by
  obtain ⟨-, hrefusal, hobject, hread, -, hcorrupt⟩ := check_accepts
  refine ⟨(hread _ ?_).mp ((hobject _ sorted_sampleMembers).mpr ⟨"0", "x", rfl, rfl⟩),
    hrefusal _ nofun, hcorrupt _ _ _ rfl rfl (by decide)⟩
  rintro ms ⟨⟩
  exact sorted_sampleMembers

end LoadElement

end GridBench
