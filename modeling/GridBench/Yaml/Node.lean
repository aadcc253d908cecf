/-
  GridBench.Yaml.Node

  YAML documents as trees.  A node that repeats an earlier one is an alias
  holding the number of the anchor, and the document lists the anchored nodes,
  so that a node may even stand inside itself.
-/

namespace GridBench.Yaml

/-- How a scalar was written. -/
inductive ScalarStyle where
  | plain
  | singleQuoted
  | doubleQuoted
  | literal
  | folded
deriving DecidableEq, Repr

/-- A scalar: its text, how it was written, and its resolved tag. -/
structure Scalar where
  text : String
  style : ScalarStyle := .plain
  tag : Option String := none
deriving DecidableEq, Repr

/-- A node of a document. -/
inductive Node where
  | scalar (s : Scalar)
  | list (tag : Option String) (items : List Node)
  | table (tag : Option String) (entries : List (Node × Node))
  | alias (anchor : Nat)
deriving Repr

instance : Inhabited Node := ⟨.scalar { text := "" }⟩

/-- A document: its root, which an empty document lacks, the anchored nodes, and how many
    events spell it out. -/
structure Document where
  root : Option Node
  anchors : List (Nat × Node) := []
  size : Nat := 0

namespace Document

/-- The document with the given root and no anchors. -/
def ofNode (n : Node) : Document := { root := some n }

/-- The node an alias stands for; any other node stands for itself. -/
def follow (d : Document) : Node → Node
  | .alias a => (d.anchors.lookup a).getD default
  | n => n

@[simp] theorem follow_scalar (d : Document) (s : Scalar) : d.follow (.scalar s) = .scalar s := rfl

@[simp] theorem follow_list (d : Document) (t : Option String) (ns : List Node) :
    d.follow (.list t ns) = .list t ns := rfl

@[simp] theorem follow_table (d : Document) (t : Option String) (es : List (Node × Node)) :
    d.follow (.table t es) = .table t es := rfl

end Document

end GridBench.Yaml
