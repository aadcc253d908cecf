/-
  GridBench.Json.Printer

  JSON values as text: on one line, or with one member or item on each line.
-/
import GridBench.Json.Basic
import GridBench.Number.Style
import GridBench.Text.Quoted

namespace GridBench.Json

/-- How one character stands inside a JSON string. -/
def escapeChar (c : Char) : String :=
  if c = '"' then "\\\""
  else if c = '\\' then "\\\\"
  else if c = '\n' then "\\n"
  else if c = '\r' then "\\r"
  else if c = '\t' then "\\t"
  else if c.toNat = 8 then "\\b"
  else if c.toNat = 12 then "\\f"
  else if c.toNat < 0x20 then "\\u" ++ Text.hexPadded 4 c.toNat
  else c.toString

/-- A JSON string literal. -/
def escape (s : String) : String :=
  "\"" ++ String.join (s.toList.map escapeChar) ++ "\""

mutual

/-- The value on one line, without blanks. -/
def compact : Json → String
  | .null => "null"
  | .bool b => if b then "true" else "false"
  | .integer i => toString i
  | .real x => FloatStyle.json.render x
  | .text s => escape s
  | .array items => "[" ++ ",".intercalate (compactItems items) ++ "]"
  | .object members => "\x7b" ++ ",".intercalate (compactMembers members) ++ "\x7d"

/-- Each item on one line. -/
def compactItems : List Json → List String
  | [] => []
  | v :: vs => v.compact :: compactItems vs

/-- Each member on one line. -/
def compactMembers : List (String × Json) → List String
  | [] => []
  | (n, v) :: ms => (escape n ++ ":" ++ v.compact) :: compactMembers ms

end

/-- A bracketed block with one entry on each line, indented by two blanks per level. -/
def block (opening closing : String) (depth : Nat) (entries : List String) : String :=
  if entries.isEmpty then opening ++ closing
  else
    let margin := "".pushn ' ' (2 * (depth + 1))
    opening ++ "\n" ++ ",\n".intercalate (entries.map (margin ++ ·)) ++ "\n"
      ++ "".pushn ' ' (2 * depth) ++ closing

mutual

/-- The value with one entry on each line, inside `depth` levels of nesting. -/
def pretty (depth : Nat) : Json → String
  | .array items => block "[" "]" depth (prettyItems (depth + 1) items)
  | .object members => block "\x7b" "\x7d" depth (prettyMembers (depth + 1) members)
  | .null => "null"
  | .bool b => if b then "true" else "false"
  | .integer i => toString i
  | .real x => FloatStyle.json.render x
  | .text s => escape s

/-- Each item, laid out at its depth. -/
def prettyItems (depth : Nat) : List Json → List String
  | [] => []
  | v :: vs => v.pretty depth :: prettyItems depth vs

/-- Each member, laid out at its depth. -/
def prettyMembers (depth : Nat) : List (String × Json) → List String
  | [] => []
  | (n, v) :: ms => (escape n ++ ": " ++ v.pretty depth) :: prettyMembers depth ms

end

end GridBench.Json
