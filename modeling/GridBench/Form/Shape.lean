/-
  GridBench.Form.Shape

  A shape says how values of one type stand in a file.  It reads a value
  straight from a YAML node, where any plain scalar may be a string, or from a
  value whose types are already known, and it writes a value.
-/
import GridBench.Form.Buffer

namespace GridBench.Form

open GridBench.Yaml

/-- Where a typed value comes from: a JSON document, or a YAML section that was typed before
    its form was known. -/
inductive Origin where
  | json
  | buffered
deriving DecidableEq, Repr

/-- How values of a type are read and written. -/
structure Shape (α : Type) where
  ofNode : Document → Place → Node → Except Refusal α
  ofDatum : Origin → Datum → Except Misfit α
  toDatum : α → Datum

/-- What a node holds in place of the expected value. -/
def misfitOf (expected : String) : Node → Misfit
  | .scalar s =>
    match s.value with
    | .error m => .wrongValue (.text m.text) m.expected
    | .ok .null => .wrongType .unit expected
    | .ok (.bool b) => .wrongType (.bool b) expected
    | .ok (.natural n) => .wrongType (.whole n) expected
    | .ok (.negated n) => .wrongType (.whole (-n)) expected
    | .ok (.wide i) => .wrongType (.wide i) expected
    | .ok (.real x) => .wrongType (.real x) expected
    | .ok (.text t) => .wrongType (.text t) expected
  | .list .. => .wrongType .list expected
  | .table .. => .wrongType .table expected
  | .alias _ => .wrongType .unit expected

/-- Whether a scalar can spell a value of the tag's type: it is plain, or literal with the tag. -/
def spells (tag : String) (s : Scalar) : Bool :=
  s.style = .plain || (s.style = .literal && s.tag = some tag)

/-- Whether a node is the empty plain scalar that stands where nothing is written. -/
def isEmptyScalar : Node → Bool
  | .scalar s => s.style = .plain && s.text.isEmpty
  | _ => false

namespace Shape

/-- Reads a scalar by its text alone. -/
def scalarOf (tag expected : String) (read : String → Option α) (d : Document) (place : Place)
    (n : Node) : Except Refusal α :=
  let n := d.follow n
  let refuse : Except Refusal α := .error (.misfit (some place) (misfitOf expected n))
  match n with
  | .scalar s => if spells tag s then (read s.text).elim refuse .ok else refuse
  | _ => refuse

/-- Booleans. -/
def bool : Shape Bool where
  ofNode := scalarOf Tag.bool "a boolean" boolOfText?
  ofDatum _ v :=
    match v with
    | .bool b => .ok b
    | v => .error (.wrongType (.ofDatum v) "a boolean")
  toDatum b := .bool b

/-- Natural numbers below `limit`. -/
def natural (limit : Nat) (expected : String) (ofNat : Nat → α) (toNat : α → Nat) : Shape α where
  ofNode d place n := do
    let k ← scalarOf Tag.int expected (fun s => natural? (.pow 2 64) s.toList) d place n
    if k < limit then .ok (ofNat k)
    else .error (.misfit (some place) (.wrongValue (.whole k) expected))
  ofDatum _ v :=
    match v.int? with
    | some i =>
      if 0 ≤ i ∧ i < limit then .ok (ofNat i.toNat) else .error (.wrongValue (.whole i) expected)
    | none => .error (.wrongType (.ofDatum v) expected)
  toDatum k := .natural (toNat k)

def uint32 : Shape UInt32 := natural (.pow 2 32) "u32" .ofNat UInt32.toNat

def uint64 : Shape UInt64 := natural (.pow 2 64) "u64" .ofNat UInt64.toNat

/-- Single-precision numbers; whole numbers and doubles are rounded. -/
def single : Shape Single where
  ofNode := scalarOf Tag.float "f32" fun s => (doubleOfText? s).map (·.convert .single)
  ofDatum _ v :=
    match v with
    | .single x => .ok x
    | .double x => .ok (x.convert .single)
    | v =>
      match v.int? with
      | some i => .ok (Binary.ofInt .single i)
      | none => .error (.wrongType (.ofDatum v) "f32")
  toDatum x := .single x

/-- Strings; in a YAML node every scalar is one. -/
def text : Shape String where
  ofNode d place n :=
    match d.follow n with
    | .scalar s => .ok s.text
    | n => .error (.misfit (some place) (misfitOf "a string" n))
  ofDatum _ v :=
    match v with
    | .text s => .ok s
    | v => .error (.wrongType (.ofDatum v) "a string")
  toDatum s := .text s

/-- Whether a scalar stands for no value. -/
def isAbsent (s : Scalar) : Except Refusal Bool :=
  if s.style ≠ .plain then .ok false
  else
    match s.tag with
    | none => .ok (s.text.isEmpty || isNullText s.text)
    | some tag =>
      if tag = Tag.null then
        if isNullText s.text then .ok true
        else .error (.misfit none (.wrongValue (.text s.text) "null"))
      else .ok false

/-- Strings that may be absent. -/
def optionalText : Shape (Option String) where
  ofNode d place n :=
    match d.follow n with
    | .scalar s => (isAbsent s).map fun absent => if absent then none else some s.text
    | n => (text.ofNode d place n).map some
  ofDatum origin v :=
    match v with
    | .unit => .ok none
    | v => (text.ofDatum origin v).map some
  toDatum s :=
    match s with
    | some s => .text s
    | none => .unit

/-- Reads each item at its place. -/
def itemsOf (s : Shape α) (d : Document) (place : Place) :
    Nat → List Node → Except Refusal (List α)
  | _, [] => .ok []
  | i, n :: ns => do
    let v ← s.ofNode d (.index i :: place) n
    let vs ← itemsOf s d place (i + 1) ns
    .ok (v :: vs)

/-- Lists of values of one shape. -/
def list (s : Shape α) : Shape (List α) where
  ofNode d place n :=
    let n := d.follow n
    match n with
    | .list _ items => s.itemsOf d place 0 items
    | n =>
      if isEmptyScalar n then .ok []
      else .error (.misfit (some place) (misfitOf "a sequence" n))
  ofDatum origin v :=
    match v with
    | .list items => items.mapM (s.ofDatum origin)
    | v => .error (.wrongType (.ofDatum v) "a sequence")
  toDatum vs := .list (vs.map s.toDatum)

/-- The value of a variant's name. -/
def variant (variants : List (String × α)) (name : String) : Except Misfit α :=
  match variants.lookup name with
  | some v => .ok v
  | none => .error (.unknownVariant name (variants.map Prod.fst))

/-- The variant a key of a typed value stands for: by name, or by position. -/
def variantOfKey (variants : List (String × α)) : Datum → Except Misfit α
  | .text name => variant variants name
  | .natural i =>
    match variants[i]? with
    | some (_, v) => .ok v
    | none =>
      .error (.wrongValue (.whole i) ("variant index 0 <= i < " ++ toString variants.length))
  | v => .error (.wrongType (.ofDatum v) "variant identifier")

/-- Whether a typed value may stand behind the name of a variant without contents. -/
def isNothing : Origin → Datum → Bool
  | _, .unit => true
  | .buffered, .table [] => true
  | _, _ => false

/-- One of several named values, written as its name. -/
def choice (variants : List (String × α)) (name : α → String) : Shape α where
  ofNode d place n :=
    let n := d.follow n
    let unit (v : α) : Except Refusal α :=
      match n with
      | .scalar s =>
        if s.style = .plain && (s.text.isEmpty || isNullText s.text) then .ok v
        else .error (.misfit (some place) (misfitOf "unit" n))
      | _ => .error (.misfit (some place) (misfitOf "unit" n))
    let tag := match n with
      | .scalar s => s.tag
      | .list tag _ => tag
      | .table tag _ => tag
      | .alias _ => none
    match Tag.localName? tag, n with
    | some tag, _ => ((variant variants tag).mapError (.misfit none)).bind unit
    | none, .scalar s => (variant variants s.text).mapError (.misfit (some place))
    | none, n => .error (.misfit (some place) (misfitOf "a YAML tag starting with '!'" n))
  ofDatum origin v :=
    match v with
    | .text s => variant variants s
    | .table [(k, content)] => do
      let v ← variantOfKey variants k
      if isNothing origin content then .ok v
      else .error (.wrongType (.ofDatum content) "unit")
    | .table _ => .error (.wrongValue .table "map with a single key")
    | v => .error (.wrongType (.ofDatum v) "string or map")
  toDatum v := .text (name v)

end Shape

end GridBench.Form
