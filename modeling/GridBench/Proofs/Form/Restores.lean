/-
  GridBench.Proofs.Form.Restores

  A shape restores a value if whatever an edit leaves of the written value is
  read as that value, and if that is the usual value when the edit keeps
  nothing.  Scalars and lists of strings are restored as they were.
-/
import GridBench.Proofs.Form.Edited
import GridBench.Proofs.Yaml.Scalar

namespace GridBench.Form

open GridBench.Yaml

/-- A node is read as a value wherever it stands at a level of the document. -/
def direct (level : Nat) (read : Document → Place → Node → Except Refusal α) (n : Node) (v : α) :
    Prop :=
  ∀ d place, place.length = level → read d place n = .ok v

/-- A node is read as a value once it has its type, with room for `depth` levels below it. -/
def typed (depth : Nat) (read : Origin → Datum → Except Misfit α) (n : Node) (v : α) : Prop :=
  ∀ d place, ∃ x, Buffer.node d depth place n 0 = .ok (x, 0) ∧ read .buffered x = .ok v

/-- Every edit of what was written is read as `v`, and `v` is the usual value if the edit keeps
    nothing. -/
structure Restores (keep : List String → Bool) (admits : List String → Node → Prop)
    (written : Datum) (reads : Node → α → Prop) (v usual : α) : Prop where
  reads : ∀ n, Edited keep admits (Node.ofDatum written) n → reads n v
  unkept : (∀ path, keep path = false) → v = usual

variable {keep : List String → Bool} {admits : List String → Node → Prop}

/-- A leaf that reads back is restored: to itself if it is kept, to the usual value if not. -/
theorem Restores.leaf {written : Datum} {reads : Node → α → Prop} {v usual : α}
    (hleaf : isLeaf (Node.ofDatum written)) (h : keep [] = true → reads (Node.ofDatum written) v) :
    Restores keep admits written reads (if keep [] then v else usual) usual where
  reads n hn := by
    generalize Node.ofDatum written = m at *
    cases hn with
    | leaf _ kept => simpa only [kept, if_true] using h kept
    | table => cases hleaf
  unkept hkeep := by simp [hkeep]

/-! ## Numerals -/

/-- What a single-precision number is read as from the text it is written as, by way of the
    nearest double. -/
def throughText (x : Single) : Option Single :=
  match coreValue (FloatStyle.yamlSingle.render x) with
  | .real y => some (y.convert .single)
  | _ => none

/-- A single-precision number is read as itself from its text.  The text is the shortest one that
    rounds to the number; rounded to a double first, it may go to a neighbour instead. -/
def GivenBack (x : Single) : Prop := throughText x = some x

instance (x : Single) : Decidable (GivenBack x) :=
  inferInstanceAs (Decidable (throughText x = some x))

-- Two numbers next to each other: the double nearest to what the first is written as lies
-- halfway between them.
example : ¬ GivenBack (.finite false 11420669 (-107)) ∧ GivenBack (.finite false 11420670 (-107)) := by
  decide +kernel

theorem GivenBack.exists_real {x : Single} (h : GivenBack x) :
    ∃ y, coreValue (FloatStyle.yamlSingle.render x) = .real y ∧ y.convert .single = x := by
  unfold GivenBack throughText at h
  split at h
  · rename_i y hy
    exact ⟨y, hy, Option.some.inj h⟩
  · cases h

/-! ## Leaves -/

namespace Restores

variable {depth level : Nat}

theorem typed_scalar {read : Origin → Datum → Except Misfit α} {s : Scalar} {x : Datum} {v : α}
    (hx : ∀ place, Buffer.ofScalar place s = .ok x) (hread : read .buffered x = .ok v) :
    typed depth read (.scalar s) v := by
  intro d place
  exact ⟨x, by simp only [Buffer.node_scalar, hx, Except.map], hread⟩

theorem bool (b usual : Bool) :
    Restores keep admits (.bool b) (typed depth Shape.bool.ofDatum) (if keep [] then b else usual)
      usual :=
  .leaf rfl fun _ => typed_scalar (x := .bool b) (by cases b <;> exact fun _ => rfl) rfl

theorem ofScalar_text (place : Place) (s : String) :
    Buffer.ofScalar place { text := s, style := .ofText s } = .ok (.text s) := by
  simp only [Buffer.ofScalar, value_text]
  rfl

theorem text_typed (s usual : String) :
    Restores keep admits (.text s) (typed depth Shape.text.ofDatum) (if keep [] then s else usual)
      usual :=
  .leaf rfl fun _ => typed_scalar (ofScalar_text · s) rfl

theorem text_direct (s usual : String) :
    Restores keep admits (.text s) (direct level Shape.text.ofNode) (if keep [] then s else usual)
      usual :=
  .leaf rfl fun _ _ _ _ => rfl

theorem optionalText (s usual : Option String) :
    Restores keep admits (Shape.optionalText.toDatum s) (direct level Shape.optionalText.ofNode)
      (if keep [] then s else usual) usual := by
  cases s with
  | none => exact .leaf rfl fun _ _ _ _ => rfl
  | some s =>
    refine .leaf rfl fun _ d place _ => ?_
    simp [Shape.optionalText, Node.ofDatum, Node.text, isAbsent_text, Except.map]

theorem itemsOf_text (d : Document) (place : Place) (i : Nat) (ss : List String) :
    Shape.text.itemsOf d place i (Node.ofItems (ss.map Shape.text.toDatum)) = .ok ss := by
  induction ss generalizing i with
  | nil => rfl
  | cons s ss ih =>
    simp only [List.map_cons, Node.ofItems, Shape.itemsOf, ih, bind, Except.bind]
    rfl

theorem listOfText (ss usual : List String) :
    Restores keep admits ((Shape.list .text).toDatum ss) (direct level (Shape.list .text).ofNode)
      (if keep [] then ss else usual) usual :=
  .leaf rfl fun _ d place _ => itemsOf_text d place 0 ss

/-- A natural number of at most 64 bits, read where it stands. -/
theorem natural_direct {limit : Nat} {expected : String} {ofNat : Nat → α} {toNat : α → Nat}
    {k usual : α} (hk : ofNat (toNat k) = k) (hlimit : toNat k < limit)
    (hbits : limit ≤ Nat.pow 2 64) :
    Restores keep admits ((Shape.natural limit expected ofNat toNat).toDatum k)
      (direct level (Shape.natural limit expected ofNat toNat).ofNode) (if keep [] then k else usual)
      usual := by
  refine .leaf rfl fun _ d place _ => ?_
  have hread : Shape.scalarOf Tag.int expected (fun s => natural? (.pow 2 64) s.toList) d place
      (Node.plain (toString (toNat k))) = .ok (toNat k) := by
    simp only [Shape.scalarOf, Node.plain, Document.follow_scalar, spells, toList_toString,
      natural?_toDigits (Nat.lt_of_lt_of_le hlimit hbits)]
    rfl
  simp only [Shape.natural, Node.ofDatum, hread, bind, Except.bind, hlimit, if_true, hk]

/-- A natural number of at most 64 bits, read after it was given its type. -/
theorem natural_typed {limit : Nat} {expected : String} {ofNat : Nat → α} {toNat : α → Nat}
    {k usual : α} (hk : ofNat (toNat k) = k) (hlimit : toNat k < limit)
    (hbits : limit ≤ Nat.pow 2 64) :
    Restores keep admits ((Shape.natural limit expected ofNat toNat).toDatum k)
      (typed depth (Shape.natural limit expected ofNat toNat).ofDatum) (if keep [] then k else usual)
      usual := by
  refine .leaf rfl fun _ => typed_scalar (x := .natural (toNat k)) (fun place => ?_) ?_
  · have hvalue : Scalar.value { text := toString (toNat k) } = .ok (.natural (toNat k)) := by
      simp only [Scalar.value, coreValue_toString (Nat.lt_of_lt_of_le hlimit hbits), if_true]
    simp only [Buffer.ofScalar, hvalue]
    rfl
  · simp only [Shape.natural, Datum.int?, Int.natCast_nonneg, Int.ofNat_lt, hlimit, true_and,
      if_true, Int.toNat_natCast, hk]

theorem uint32_direct (k usual : UInt32) :
    Restores keep admits (Shape.uint32.toDatum k) (direct level Shape.uint32.ofNode)
      (if keep [] then k else usual) usual :=
  natural_direct UInt32.ofNat_toNat k.toNat_lt (by decide)

theorem uint32_typed (k usual : UInt32) :
    Restores keep admits (Shape.uint32.toDatum k) (typed depth Shape.uint32.ofDatum)
      (if keep [] then k else usual) usual :=
  natural_typed UInt32.ofNat_toNat k.toNat_lt (by decide)

theorem uint64_direct (k usual : UInt64) :
    Restores keep admits (Shape.uint64.toDatum k) (direct level Shape.uint64.ofNode)
      (if keep [] then k else usual) usual :=
  natural_direct UInt64.ofNat_toNat k.toNat_lt (by decide)

theorem uint64_typed (k usual : UInt64) :
    Restores keep admits (Shape.uint64.toDatum k) (typed depth Shape.uint64.ofDatum)
      (if keep [] then k else usual) usual :=
  natural_typed UInt64.ofNat_toNat k.toNat_lt (by decide)

/-- One of several named values, if its name leads back to it. -/
theorem choice {variants : List (String × α)} {name : α → String} {v usual : α}
    (hname : variants.lookup (name v) = some v) :
    Restores keep admits ((Shape.choice variants name).toDatum v)
      (typed depth (Shape.choice variants name).ofDatum) (if keep [] then v else usual) usual := by
  refine .leaf rfl fun _ => typed_scalar (ofScalar_text · (name v)) ?_
  simp only [Shape.choice, Shape.variant, hname]

/-- A single-precision number, if the text it is written as leads back to it. -/
theorem single {x usual : Single} (hx : keep [] = true → GivenBack x) :
    Restores keep admits (Shape.single.toDatum x) (typed depth Shape.single.ofDatum)
      (if keep [] then x else usual) usual := by
  refine .leaf rfl fun kept => ?_
  obtain ⟨y, hy, hyx⟩ := (hx kept).exists_real
  refine typed_scalar (x := .double y) (fun place => ?_) (congrArg Except.ok hyx)
  have hvalue : Scalar.value { text := FloatStyle.yamlSingle.render x } = .ok (.real y) := by
    simp only [Scalar.value, hy, if_true]
  simp only [Buffer.ofScalar, hvalue]
  rfl

end Restores

end GridBench.Form
