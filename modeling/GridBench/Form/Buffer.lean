/-
  GridBench.Form.Buffer

  Gives every part of a node its type without knowing what it is for.  The
  nesting is bounded, and so is the number of aliases followed, because a node
  may stand inside itself.
-/
import GridBench.Form.Refusal
import GridBench.Yaml.Core

namespace GridBench.Form

open GridBench.Yaml

/-- The greatest nesting of lists and tables. -/
def depthLimit : Nat := 128

namespace Buffer

/-- A value and the number of aliases followed so far. -/
abbrev Counted (α : Type) := α × Nat

/-- A scalar with its type. -/
def ofScalar (place : Place) (s : Scalar) : Except Refusal Datum :=
  match Tag.localName? s.tag with
  | some _ => .error (.misfit (some place) .taggedValue)
  | none =>
    match s.value with
    | .error m => .error (.misfit (some place) (.wrongValue (.text m.text) m.expected))
    | .ok .null => .ok .unit
    | .ok (.bool b) => .ok (.bool b)
    | .ok (.natural n) => .ok (.natural n)
    | .ok (.negated n) => .ok (.negated n)
    | .ok (.wide i) => .error (.misfit (some place) (.wrongType (.wide i) "any value"))
    | .ok (.real x) => .ok (.double x)
    | .ok (.text t) => .ok (.text t)

/-- The step under a key. -/
def stepOf : Node → Step
  | .scalar s => .key s.text
  | _ => .unnamed

/-- Each item at its place. -/
def items (read : Place → Node → Nat → Except Refusal (Counted Datum)) (place : Place) :
    Nat → List Node → Nat → Except Refusal (Counted (List Datum))
  | _, [], jumps => .ok ([], jumps)
  | i, n :: ns, jumps =>
    match read (.index i :: place) n jumps with
    | .error r => .error r
    | .ok (v, jumps) =>
      match items read place (i + 1) ns jumps with
      | .error r => .error r
      | .ok (vs, jumps) => .ok (v :: vs, jumps)

/-- Each entry; keys are read at the place of the table. -/
def entries (read : Place → Node → Nat → Except Refusal (Counted Datum)) (place : Place) :
    List (Node × Node) → Nat → Except Refusal (Counted (List (Datum × Datum)))
  | [], jumps => .ok ([], jumps)
  | (k, n) :: es, jumps =>
    match read place k jumps with
    | .error r => .error r
    | .ok (key, jumps) =>
      match read (stepOf k :: place) n jumps with
      | .error r => .error r
      | .ok (v, jumps) =>
        match entries read place es jumps with
        | .error r => .error r
        | .ok (vs, jumps) => .ok ((key, v) :: vs, jumps)

/-- A node with its types, below which `depth` more levels may be nested. -/
def node (d : Document) : Nat → Place → Node → Nat → Except Refusal (Counted Datum)
  | depth, place, n, jumps =>
    let jumps' := match n with
      | .alias _ => jumps + 1
      | _ => jumps
    if d.size * 100 < jumps' then .error .repetition
    else
      match d.follow n with
      | .scalar s => (ofScalar place s).map fun v => (v, jumps')
      | .alias _ => .error .malformed
      | .list tag ns =>
        match Tag.localName? tag, depth with
        | some _, _ => .error (.misfit (some place) .taggedValue)
        | none, 0 => .error .malformed
        | none, depth + 1 =>
          (items (node d depth) place 0 ns jumps').map fun (vs, jumps) => (.list vs, jumps)
      | .table tag es =>
        match Tag.localName? tag, depth with
        | some _, _ => .error (.misfit (some place) .taggedValue)
        | none, 0 => .error .malformed
        | none, depth + 1 =>
          (entries (node d depth) place es jumps').map fun (vs, jumps) => (.table vs, jumps)

end Buffer

end GridBench.Form
