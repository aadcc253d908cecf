/-
  GridBench.Proofs.Form.Edited

  What may become of a written file.  Settings are taken out of its tables, a
  table whose settings are all taken out may go or stay, entries under unknown
  keys are put in, and the entries of a table change places.  What is put into
  a section that is typed before it is read has to be a tree of scalars.
-/
import GridBench.Yaml.Printer
import GridBench.Form.Section

namespace GridBench.Form

open GridBench.Yaml

/-- What a function of paths says of the paths below a key. -/
def under (f : List String → α) (key : String) : List String → α := fun path => f (key :: path)

/-! ## Edits -/

/-- Whether a node is no table. -/
def isLeaf : Node → Bool
  | .table .. => false
  | _ => true

/-- Whether a table has an entry under a key. -/
def hasKey (es : List (Node × Node)) (key : String) : Bool :=
  es.any fun e =>
    match e.1 with
    | .scalar k => k.text = key
    | _ => false

/-- An entry whose key is a string that is no key of a table, and whose value is admitted. -/
inductive NewEntry (admits : Node → Prop) (es : List (Node × Node)) : Node × Node → Prop
  | intro {s : Scalar} {n : Node} (untagged : Tag.localName? s.tag = none)
      (isText : s.value = .ok (.text s.text))
      (unknown : hasKey es s.text = false) (admitted : admits n) :
      NewEntry admits es (.scalar s, n)

mutual

/-- `Edited keep admits n n'`: the node `n'` comes from `n` by an edit that keeps the leaves whose
    paths `keep` names and puts nodes that `admits` names into the tables at the paths. -/
inductive Edited : (List String → Bool) → (List String → Node → Prop) → Node → Node → Prop
  | leaf {keep : List String → Bool} {admits : List String → Node → Prop} {n : Node}
      (hleaf : isLeaf n) (kept : keep [] = true) : Edited keep admits n n
  | table {keep : List String → Bool} {admits : List String → Node → Prop}
      {es kept es' : List (Node × Node)} (new : List (Node × Node))
      (hkept : EditedEntries keep admits es kept)
      (hnew : ∀ e ∈ new, NewEntry (admits []) es e) (hperm : (kept ++ new).Perm es') :
      Edited keep admits (.table none es) (.table none es')

/-- The entries that an edit of a table keeps, in their order; an entry may go if nothing below
    its key is to be kept. -/
inductive EditedEntries :
    (List String → Bool) → (List String → Node → Prop) → List (Node × Node) →
      List (Node × Node) → Prop
  | nil {keep : List String → Bool} {admits : List String → Node → Prop} :
      EditedEntries keep admits [] []
  | keep {keep : List String → Bool} {admits : List String → Node → Prop} {k : Scalar}
      {n n' : Node} {es es' : List (Node × Node)}
      (hn : Edited (under keep k.text) (under admits k.text) n n')
      (hes : EditedEntries keep admits es es') :
      EditedEntries keep admits ((.scalar k, n) :: es) ((.scalar k, n') :: es')
  | drop {keep : List String → Bool} {admits : List String → Node → Prop} {k : Scalar}
      {n : Node} {es es' : List (Node × Node)} (hdrop : ∀ path, under keep k.text path = false)
      (hes : EditedEntries keep admits es es') :
      EditedEntries keep admits ((.scalar k, n) :: es) es'

end

variable {keep : List String → Bool} {admits : List String → Node → Prop}

/-- An edit of two runs of entries edits each of them. -/
theorem EditedEntries.append_inv {es₁ es₂ kept : List (Node × Node)}
    (h : EditedEntries keep admits (es₁ ++ es₂) kept) :
    ∃ kept₁ kept₂, kept = kept₁ ++ kept₂ ∧ EditedEntries keep admits es₁ kept₁ ∧
      EditedEntries keep admits es₂ kept₂ := by
  induction es₁ generalizing kept with
  | nil => exact ⟨[], kept, rfl, .nil, h⟩
  | cons e es₁ ih =>
    cases h with
    | keep hn hes =>
      obtain ⟨kept₁, kept₂, rfl, h₁, h₂⟩ := ih hes
      exact ⟨_ :: kept₁, kept₂, rfl, .keep hn h₁, h₂⟩
    | drop hdrop hes =>
      obtain ⟨kept₁, kept₂, rfl, h₁, h₂⟩ := ih hes
      exact ⟨kept₁, kept₂, rfl, .drop hdrop h₁, h₂⟩

/-! ## The edit that changes nothing -/

mutual

/-- Whether all keys of tables are scalars, and no table has a tag. -/
def isKeyed : Node → Bool
  | .table tag es => tag = none && areKeyed es
  | _ => true

def areKeyed : List (Node × Node) → Bool
  | [] => true
  | (.scalar _, n) :: es => isKeyed n && areKeyed es
  | _ => false

end

mutual

theorem Edited.refl {admits : List String → Node → Prop} :
    ∀ {n : Node}, isKeyed n → Edited (fun _ => true) admits n n
  | .scalar _, _ | .list .., _ | .alias _, _ => .leaf rfl rfl
  | .table tag es, h => by
    simp only [isKeyed, Bool.and_eq_true, decide_eq_true_eq] at h
    obtain ⟨rfl, hes⟩ := h
    have hperm : (es ++ []).Perm es := List.Perm.of_eq (List.append_nil es)
    exact .table [] (EditedEntries.refl hes) (by simp) hperm

theorem EditedEntries.refl {admits : List String → Node → Prop} :
    ∀ {es : List (Node × Node)}, areKeyed es → EditedEntries (fun _ => true) admits es es
  | [], _ => .nil
  | (.scalar _, n) :: es, h => by
    simp only [areKeyed, Bool.and_eq_true] at h
    exact .keep (Edited.refl h.1) (EditedEntries.refl h.2)

end

/-! ## Trees of scalars -/

namespace Buffer

/-- Whether a scalar stands for a value of a type of its own, of at most 64 bits. -/
def fitsScalar (s : Scalar) : Bool :=
  (Tag.localName? s.tag).isNone &&
    match s.value with
    | .ok (.wide _) => false
    | .ok _ => true
    | .error _ => false

/-- Whether a node is a tree of such scalars, with at most `depth` levels of lists and tables. -/
def fits : Nat → Node → Bool
  | _, .scalar s => fitsScalar s
  | depth + 1, .list tag ns => (Tag.localName? tag).isNone && ns.all (fits depth)
  | depth + 1, .table tag es =>
    (Tag.localName? tag).isNone && es.all fun e => fits depth e.1 && fits depth e.2
  | _, _ => false

variable (d : Document)

theorem node_scalar (depth : Nat) (place : Place) (s : Scalar) :
    node d depth place (.scalar s) 0 = (ofScalar place s).map fun v => (v, 0) := by
  cases depth <;> simp [node]

theorem ofScalar_of_fits {s : Scalar} (h : fitsScalar s) (place : Place) :
    ∃ x, ofScalar place s = .ok x := by
  simp only [fitsScalar, Bool.and_eq_true, Option.isNone_iff_eq_none] at h
  obtain ⟨htag, hvalue⟩ := h
  simp only [ofScalar, htag]
  split at hvalue
  · cases hvalue
  · rename_i v hwide hv
    cases v <;> simp [hv] at hwide ⊢
  · cases hvalue

theorem items_of_forall {read : Place → Node → Nat → Except Refusal (Counted Datum)}
    {ns : List Node} (h : ∀ n ∈ ns, ∀ place, ∃ x, read place n 0 = .ok (x, 0)) (place : Place)
    (i : Nat) : ∃ xs, items read place i ns 0 = .ok (xs, 0) := by
  induction ns generalizing i with
  | nil => exact ⟨[], rfl⟩
  | cons n ns ih =>
    obtain ⟨x, hx⟩ := h n (.head _) (.index i :: place)
    obtain ⟨xs, hxs⟩ := ih (fun m hm => h m (.tail _ hm)) (i + 1)
    exact ⟨x :: xs, by simp only [items, hx, hxs]⟩

theorem entries_of_forall {read : Place → Node → Nat → Except Refusal (Counted Datum)}
    {es : List (Node × Node)}
    (h : ∀ e ∈ es, ∀ place,
      (∃ x, read place e.1 0 = .ok (x, 0)) ∧ ∃ x, read place e.2 0 = .ok (x, 0))
    (place : Place) : ∃ xs, entries read place es 0 = .ok (xs, 0) := by
  induction es with
  | nil => exact ⟨[], rfl⟩
  | cons e es ih =>
    obtain ⟨k, n⟩ := e
    obtain ⟨x, hx⟩ := (h (k, n) (.head _) place).1
    obtain ⟨y, hy⟩ := (h (k, n) (.head _) (stepOf k :: place)).2
    obtain ⟨xs, hxs⟩ := ih fun m hm => h m (.tail _ hm)
    exact ⟨(x, y) :: xs, by simp only [entries, hx, hy, hxs]⟩

theorem node_table {depth : Nat} {place : Place} {tag : Option String} {es : List (Node × Node)}
    {vs : List (Datum × Datum)} (htag : Tag.localName? tag = none)
    (h : entries (node d depth) place es 0 = .ok (vs, 0)) :
    node d (depth + 1) place (.table tag es) 0 = .ok (.table vs, 0) := by
  simp [node, htag, h, Except.map]

/-- A tree of scalars gets its types, and no alias is followed for it. -/
theorem node_of_fits {depth : Nat} {n : Node} (h : fits depth n) (place : Place) :
    ∃ x, node d depth place n 0 = .ok (x, 0) := by
  -- On the depth: one level of lists or tables is taken off, scalars need none.
  induction depth generalizing n place with
  | zero =>
    cases n with
    | scalar s =>
      obtain ⟨x, hx⟩ := ofScalar_of_fits h place
      exact ⟨x, by simp [node_scalar, hx, Except.map]⟩
    | _ => cases h
  | succ depth ih =>
    cases n with
    | scalar s =>
      obtain ⟨x, hx⟩ := ofScalar_of_fits h place
      exact ⟨x, by simp [node_scalar, hx, Except.map]⟩
    | list tag ns =>
      simp only [fits, Bool.and_eq_true, Option.isNone_iff_eq_none, List.all_eq_true] at h
      obtain ⟨xs, hxs⟩ := items_of_forall (fun n hn place => ih (h.2 n hn) place) place 0
      exact ⟨.list xs, by simp [node, h.1, hxs, Except.map]⟩
    | table tag es =>
      simp only [fits, Bool.and_eq_true, Option.isNone_iff_eq_none, List.all_eq_true] at h
      obtain ⟨xs, hxs⟩ := entries_of_forall
        (fun e he place => ⟨ih (h.2 e he).1 place, ih (h.2 e he).2 place⟩) place
      exact ⟨.table xs, node_table d h.1 hxs⟩
    | «alias» a => cases h

end Buffer

end GridBench.Form
