/-
  GridBench.Yaml.Printer

  Typed values as YAML documents: first as a tree of scalars, each with the
  style that keeps its type, then as text.
-/
import GridBench.Yaml.Style
import GridBench.Form.Datum
import GridBench.Number.Style
import GridBench.Text.Quoted

namespace GridBench.Yaml

namespace Node

/-- A plain scalar. -/
def plain (s : String) : Node := .scalar { text := s }

/-- A string, in the style that lets it read back as a string. -/
def text (s : String) : Node := .scalar { text := s, style := .ofText s }

mutual

/-- The tree that stands for a typed value. -/
def ofDatum : Datum → Node
  | .unit => plain "null"
  | .bool b => plain (if b then "true" else "false")
  | .natural n => plain (toString n)
  | .negated n => plain ("-" ++ toString n)
  | .single x => plain (FloatStyle.yamlSingle.render x)
  | .double x => plain (FloatStyle.yamlDouble.render x)
  | .text s => text s
  | .list items => .list none (ofItems items)
  | .table entries => .table none (ofEntries entries)

def ofItems : List Datum → List Node
  | [] => []
  | v :: vs => ofDatum v :: ofItems vs

def ofEntries : List (Datum × Datum) → List (Node × Node)
  | [] => []
  | (k, v) :: es => (ofDatum k, ofDatum v) :: ofEntries es

end

end Node

namespace Printer

/-- Hexadecimal digits in upper case, filled up with zeros on the left. -/
def hexUpper (width n : Nat) : String := (Text.hexPadded width n).toUpper

/-- How one character stands between double quotes. -/
def escapeChar (c : Char) : String :=
  let named : List (Nat × String) := [
    (0, "0"), (7, "a"), (8, "b"), (9, "t"), (10, "n"), (11, "v"), (12, "f"), (13, "r"), (27, "e"),
    (34, "\""), (92, "\\"), (0x85, "N"), (0xA0, "_"), (0x2028, "L"), (0x2029, "P")]
  let n := c.toNat
  if isShown c && !isBreak c && c ≠ '"' && c ≠ '\\' then c.toString
  else
    match named.lookup n with
    | some s => "\\" ++ s
    | none =>
      if n ≤ 0xFF then "\\x" ++ hexUpper 2 n
      else if n ≤ 0xFFFF then "\\u" ++ hexUpper 4 n
      else "\\U" ++ hexUpper 8 n

def doubleQuoted (s : String) : String :=
  "\"" ++ String.join (s.toList.map escapeChar) ++ "\""

/-- Text between single quotes; behind a line break the margin is written first. -/
def singleChars (margin : Nat) : Bool → List Char → List Char
  | broken, [] => if broken then List.replicate margin ' ' else []
  | broken, c :: cs =>
    if isBreak c then c :: singleChars margin true cs
    else
      (if broken then List.replicate margin ' ' else [])
        ++ (if c = '\'' then ['\'', '\''] else [c]) ++ singleChars margin false cs

def singleQuoted (margin : Nat) (s : String) : String :=
  "'" ++ String.ofList (singleChars margin false s.toList) ++ "'"

/-- The lines of a block; the margin is written before each line that is not empty. -/
def literalChars (margin : Nat) : Bool → List Char → List Char
  | _, [] => []
  | fresh, c :: cs =>
    if isBreak c then c :: literalChars margin true cs
    else (if fresh then List.replicate margin ' ' else []) ++ c :: literalChars margin false cs

/-- The indicators of a block: its depth if the text starts with white space, and what becomes
    of the line breaks at its end. -/
def literalHeader (cs : List Char) : String :=
  let depth := if cs.head?.any fun c => c = ' ' || isBreak c then "2" else ""
  let chomping :=
    match cs.reverse with
    | [] => "-"
    | [c] => if isBreak c then "+" else "-"
    | c :: d :: _ => if !isBreak c then "-" else if isBreak d then "+" else ""
  "|" ++ depth ++ chomping

def literal (margin : Nat) (s : String) : String :=
  literalHeader s.toList ++ "\n" ++ String.ofList (literalChars margin true s.toList)

/-- A scalar in its style, with `margin` blanks before each of its further lines. -/
def scalar (margin : Nat) (s : Scalar) : String :=
  match s.style with
  | .plain => s.text
  | .singleQuoted => singleQuoted margin s.text
  | .doubleQuoted => doubleQuoted s.text
  | .literal => literal margin s.text
  | .folded => literal margin s.text

/-- Lines below each other, with a margin before all but the first; a line that already ends
    in a line break gets no second one. -/
def stack (margin : Nat) (lines : List String) : String :=
  let next (text line : String) : String :=
    text ++ (if text.endsWith "\n" then "" else "\n") ++ "".pushn ' ' margin ++ line
  match lines with
  | [] => ""
  | l :: ls => ls.foldl next l

mutual

/-- What stands behind a key at the given margin. -/
def value (margin : Nat) : Node → String
  | .scalar s => " " ++ scalar (margin + 2) s
  | .alias a => " *" ++ toString a
  | .list _ [] => " []"
  | .list _ (n :: ns) =>
    "\n" ++ "".pushn ' ' margin ++ stack margin (items margin (n :: ns))
  | .table _ [] => " \x7b\x7d"
  | .table _ (e :: es) =>
    "\n" ++ "".pushn ' ' (margin + 2) ++ stack (margin + 2) (entries (margin + 2) (e :: es))

/-- Each item behind its dash. -/
def items (margin : Nat) : List Node → List String
  | [] => []
  | n :: ns => ("-" ++ item margin n) :: items margin ns

/-- What stands behind a dash at the given margin. -/
def item (margin : Nat) : Node → String
  | .scalar s => " " ++ scalar (margin + 2) s
  | .alias a => " *" ++ toString a
  | .list _ [] => " []"
  | .list _ (n :: ns) => " " ++ stack (margin + 2) (items (margin + 2) (n :: ns))
  | .table _ [] => " \x7b\x7d"
  | .table _ (e :: es) => " " ++ stack (margin + 2) (entries (margin + 2) (e :: es))

/-- Each key with its value. -/
def entries (margin : Nat) : List (Node × Node) → List String
  | [] => []
  | (k, n) :: es => (key k ++ ":" ++ value margin n) :: entries margin es

/-- A key, which stands on one line. -/
def key : Node → String
  | .scalar s => scalar 0 s
  | _ => "?"

end

end Printer

/-- A typed value as a document. -/
def render (v : Datum) : String :=
  let text :=
    match Node.ofDatum v with
    | .table _ (e :: es) => Printer.stack 0 (Printer.entries 0 (e :: es))
    | n => ((Printer.item 0 n).drop 1).toString
  if text.endsWith "\n" then text else text ++ "\n"

end GridBench.Yaml
