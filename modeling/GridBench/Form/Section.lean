/-
  GridBench.Form.Section

  Sections: tables with named fields.  Every field has a default, so a field
  that is left out keeps it; a field that is no field of the section is passed
  over; a field that comes twice is refused.
-/
import GridBench.Form.Shape

namespace GridBench.Form

open GridBench.Yaml

/-- A field of a section of type `σ`: its key, how its value is set, and how it is written. -/
structure SectionField (σ : Type) where
  key : String
  ofNode : Document → Place → Node → Except Refusal (σ → σ)
  ofDatum : Origin → Datum → Except Misfit (σ → σ)
  toDatum : σ → Datum

namespace SectionField

/-- The field with the given key and shape, between a reading and a setting function. -/
def of (key : String) (shape : Shape α) (get : σ → α) (set : α → σ → σ) : SectionField σ where
  key := key
  ofNode d place n := (shape.ofNode d place n).map set
  ofDatum origin v := (shape.ofDatum origin v).map set
  toDatum s := shape.toDatum (get s)

end SectionField

namespace Section

/-- The field with a key. -/
def find? (fields : List (SectionField σ)) (key : String) : Option (SectionField σ) :=
  fields.find? fun f => f.key = key

/-- The text of a key's node. -/
def keyOfNode (d : Document) (place : Place) (k : Node) : Except Refusal String :=
  match d.follow k with
  | .scalar s => .ok s.text
  | k => .error (.misfit (some place) (misfitOf "field identifier" k))

/-- Sets the fields that the entries of a YAML table name, from `s` onwards; `seen` holds the
    keys met so far. -/
def ofEntries (fields : List (SectionField σ)) (d : Document) (place : Place) :
    List (Node × Node) → List String → σ → Except Refusal σ
  | [], _, s => .ok s
  | (k, n) :: es, seen, s => do
    let key ← keyOfNode d place k
    match find? fields key with
    | none => ofEntries fields d place es seen s
    | some f =>
      if seen.contains key then .error (.misfit (some place) (.repeatedField key))
      else
        let set ← (f.ofNode d (Buffer.stepOf k :: place) n).mapError (Refusal.locate place)
        ofEntries fields d place es (key :: seen) (set s)

/-- The field a key of a typed table stands for, if any: by name, or by position. -/
def fieldOfKey (fields : List (SectionField σ)) : Datum → Except Misfit (Option (SectionField σ))
  | .text key => .ok (find? fields key)
  | .natural i => .ok fields[i]?
  | v => .error (.wrongType (.ofDatum v) "field identifier")

/-- Sets the fields that the entries of a typed table name. -/
def ofPairs (fields : List (SectionField σ)) (origin : Origin) :
    List (Datum × Datum) → List String → σ → Except Misfit σ
  | [], _, s => .ok s
  | (k, v) :: es, seen, s => do
    match ← fieldOfKey fields k with
    | none => ofPairs fields origin es seen s
    | some f =>
      if seen.contains f.key then .error (.repeatedField f.key)
      else
        let set ← f.ofDatum origin v
        ofPairs fields origin es (f.key :: seen) (set s)

/-- Sets the fields in their order from the items of a list; the fields behind the last item
    keep their defaults.  Returns what is left of the list as well. -/
def ofItems (origin : Origin) :
    List (SectionField σ) → List Datum → σ → Except Misfit (σ × List Datum)
  | f :: fs, v :: vs, s => do
    let set ← f.ofDatum origin v
    ofItems origin fs vs (set s)
  | _, vs, s => .ok (s, vs)

/-- What is expected of a list that turned out longer than the section. -/
def tooLong (origin : Origin) (taken : Nat) : String :=
  match origin with
  | .json => "fewer elements in array"
  | .buffered =>
    toString taken ++ (if taken = 1 then " element in sequence" else " elements in sequence")

/-- The entries of a section in the order of its fields. -/
def toPairs (fields : List (SectionField σ)) (s : σ) : List (Datum × Datum) :=
  fields.map fun f => (.text f.key, f.toDatum s)

end Section

/-- The shape of a section with the given fields, whose defaults are those of `start`. -/
def Shape.section (name : String) (fields : List (SectionField σ)) (start : σ) : Shape σ where
  ofNode d place n :=
    match d.follow n with
    | .table _ entries => Section.ofEntries fields d place entries [] start
    | n =>
      if isEmptyScalar n then .ok start
      else .error (.misfit (some place) (misfitOf ("struct " ++ name) n))
  ofDatum origin v :=
    match v with
    | .table entries => Section.ofPairs fields origin entries [] start
    | .list items => do
      let (s, left) ← Section.ofItems origin fields items start
      if left.isEmpty then .ok s
      else
        .error (.wrongLength items.length
          (Section.tooLong origin (items.length - left.length)))
    | v => .error (.wrongType (.ofDatum v) ("struct " ++ name))
  toDatum s := .table (Section.toPairs fields s)

/-- A section inside another one without a key of its own: the enclosing section has fields of
    its own, and the entries that are none of them are typed and handed to the inner section. -/
structure Flattened (σ ι : Type) where
  name : String
  own : List (SectionField σ)
  inner : List (SectionField ι)
  innerStart : ι
  get : σ → ι
  set : ι → σ → σ
  start : σ

namespace Flattened

variable (f : Flattened σ ι)

/-- Whether a typed key names a field of the inner section. -/
def isInner (k : Datum) : Bool :=
  match k with
  | .text key => (Section.find? f.inner key).isSome
  | _ => false

/-- Reads the inner section from the entries that are none of the enclosing section's. -/
def finish (s : σ) (others : List (Datum × Datum)) : Except Misfit σ := do
  let inner ← Section.ofPairs f.inner .buffered (others.filter fun e => f.isInner e.1) []
    f.innerStart
  .ok (f.set inner s)

/-- Reads the fields of the enclosing section and types the other entries.  `others` holds
    those met so far, the last one first, and `jumps` counts the aliases followed. -/
def ofEntries (d : Document) (place : Place) :
    List (Node × Node) → List String → List (Datum × Datum) → Nat → σ → Except Refusal σ
  | [], _, others, _, s => (f.finish s others.reverse).mapError (.misfit (some place))
  | (k, n) :: es, seen, others, jumps, s => do
    let key ← Section.keyOfNode d place k
    let place' := Buffer.stepOf k :: place
    match Section.find? f.own key with
    | some field =>
      if seen.contains key then .error (.misfit (some place) (.repeatedField key))
      else
        let set ← (field.ofNode d place' n).mapError (Refusal.locate place)
        ofEntries d place es (key :: seen) others jumps (set s)
    | none =>
      let (v, jumps) ← Buffer.node d (depthLimit - place'.length) place' n jumps
      ofEntries d place es seen ((.text key, v) :: others) jumps s

/-- Reads the fields of the enclosing section from a typed table. -/
def ofPairs (origin : Origin) :
    List (Datum × Datum) → List String → List (Datum × Datum) → σ → Except Misfit σ
  | [], _, others, s => f.finish s others.reverse
  | (k, v) :: es, seen, others, s =>
    let field := match k with
      | .text key => Section.find? f.own key
      | _ => none
    match field with
    | none => ofPairs origin es seen ((k, v) :: others) s
    | some field =>
      if seen.contains field.key then .error (.repeatedField field.key)
      else do
        let set ← field.ofDatum origin v
        ofPairs origin es (field.key :: seen) others (set s)

/-- The shape of the enclosing section.  It is never read from a list. -/
def shape : Shape σ where
  ofNode d place n :=
    match d.follow n with
    | .table _ entries => f.ofEntries d place entries [] [] 0 f.start
    | n =>
      if isEmptyScalar n then .ok f.start
      else .error (.misfit (some place) (misfitOf ("struct " ++ f.name) n))
  ofDatum origin v :=
    match v with
    | .table entries => f.ofPairs origin entries [] [] f.start
    | v => .error (.wrongType (.ofDatum v) ("struct " ++ f.name))
  toDatum s := .table (Section.toPairs f.inner (f.get s) ++ Section.toPairs f.own s)

end Flattened

namespace Shape

/-- Reads a whole document; an empty one is a section without entries. -/
def ofDocument (s : Shape α) (start : α) (d : Document) : Except Refusal α :=
  match d.root with
  | none => .ok start
  | some n => (s.ofNode d [] n).mapError (Refusal.locate [])

/-- Reads a JSON value. -/
def ofJson (s : Shape α) (v : Json) : Except Misfit α := s.ofDatum .json (.ofJson v)

end Shape

end GridBench.Form
