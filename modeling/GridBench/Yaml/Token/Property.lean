/-
  GridBench.Yaml.Token.Property

  The lexical rules of anchors, aliases, tags and directives.
-/
import GridBench.Yaml.Cursor
import GridBench.Yaml.Token
import GridBench.Json.Reader

namespace GridBench.Yaml.Property

/-- The name behind `&` or `*`. -/
def anchorName (c : Cursor) : Option (String × Cursor) :=
  let (name, c) := c.skip.takeWhile isNameChar
  if name.isEmpty then none
  else if c.atGap || c.seesAny ['?', ':', ',', ']', '\x7d', '%', '@', '`'] then
    some (String.ofList name, c)
  else none

/-- Whether a character may stand in a tag; `verbatim` adds the indicators of lists. -/
def isTagChar (verbatim : Bool) (c : Char) : Bool :=
  isNameChar c
    || [';', '/', '?', ':', '@', '&', '=', '+', '$', '.', '!', '~', '*', '\'', '(', ')'].contains c
    || (verbatim && [',', '[', ']'].contains c)

/-- How many bytes a character has whose first byte in UTF-8 is `b`; zero if none starts so. -/
def encodedWidth (b : Nat) : Nat :=
  if b < 0x80 then 1 else if b < 0xC0 then 0 else if b < 0xE0 then 2 else if b < 0xF0 then 3
  else if b < 0xF8 then 4 else 0

/-- One byte written as `%` and two hexadecimal digits. -/
def escapedByte (c : Cursor) : Option (Nat × Cursor) :=
  match c.rest with
  | '%' :: a :: b :: _ => do
    let a ← Json.hexDigit? a
    let b ← Json.hexDigit? b
    some (16 * a + b, c.skip 3)
  | _ => none

/-- The escaped bytes that continue a character. -/
def continuation : Nat → List Nat → Cursor → Option (List Nat × Cursor)
  | 0, bytes, c => some (bytes, c)
  | n + 1, bytes, c => do
    let (b, c) ← escapedByte c
    if 0x80 ≤ b && b < 0xC0 then continuation n (bytes ++ [b]) c else none

/-- A character written as escaped bytes. -/
def escapedChars (c : Cursor) : Option (List Char × Cursor) := do
  let (b, c) ← escapedByte c
  let width := encodedWidth b
  if width = 0 then none
  let (bytes, c) ← continuation (width - 1) [b] c
  let text ← String.fromUTF8? ⟨(bytes.map Nat.toUInt8).toArray⟩
  some (text.toList, c)

/-- The characters of a tag, the last one first. -/
def tagChars (verbatim : Bool) : Nat → List Char → Cursor → Option (List Char × Cursor)
  | 0, acc, c => some (acc, c)
  | fuel + 1, acc, c =>
    match c.peek? with
    | none => some (acc, c)
    | some x =>
      if x = '%' then do
        let (xs, c) ← escapedChars c
        tagChars verbatim fuel (xs.reverse ++ acc) c
      else if isTagChar verbatim x then tagChars verbatim fuel (x :: acc) c.skip
      else some (acc, c)

/-- A tag's characters behind `start`, which must not all be missing. -/
def tagText (verbatim : Bool) (start : List Char) (c : Cursor) : Option (String × Cursor) := do
  let (acc, c') ← tagChars verbatim (c.rest.length + 1) [] c
  if start.isEmpty && acc.isEmpty then none
  some (String.ofList (start.drop 1 ++ acc.reverse), c')

/-- The handle of a tag: a mark, a name, and perhaps a second mark. -/
def handle (directive : Bool) (c : Cursor) : Option (List Char × Cursor) :=
  if !c.sees '!' then none
  else
    let (name, c) := c.skip.takeWhile isNameChar
    if c.sees '!' then some ('!' :: name ++ ['!'], c.skip)
    else if directive && !name.isEmpty then none
    else some ('!' :: name, c)

/-- A tag. -/
def tag (flow : Bool) (c : Cursor) : Option (Token × Cursor) := do
  let (t, c) ←
    if c.sees '<' 1 then
      let (suffix, c) ← tagText true [] (c.skip 2)
      if c.sees '>' then some (Token.tag "" suffix, c.skip) else none
    else
      let (h, c) ← handle false c
      if 2 ≤ h.length && h.getLast? = some '!' then
        let (suffix, c) ← tagText false [] c
        some (Token.tag (String.ofList h) suffix, c)
      else
        let (suffix, c) ← tagText false h c
        some (if suffix.isEmpty then Token.tag "" "!" else Token.tag "!" suffix, c)
  if c.atGap || (flow && c.sees ',') then some (t, c) else none

/-- A number in a directive, of at most nine digits. -/
def versionNumber (c : Cursor) : Option (Nat × Cursor) :=
  let (ds, c) := c.takeWhile Char.isDigit
  if ds.isEmpty || 9 < ds.length then none
  else some (ds.foldl (fun n d => 10 * n + (d.toNat - '0'.toNat)) 0, c)

/-- A directive, up to and with the end of its line. -/
def directive (c : Cursor) : Option (Token × Cursor) := do
  let (name, c) := c.skip.takeWhile isNameChar
  if name.isEmpty || !c.atGap then none
  let c := c.skipWhile isBlank
  let (t, c) ←
    if String.ofList name = "YAML" then
      let (major, c) ← versionNumber c
      if !c.sees '.' then none
      let (minor, c) ← versionNumber c.skip
      some (Token.versionDirective major minor, c)
    else if String.ofList name = "TAG" then
      let (h, c) ← handle true c
      if !c.atBlank then none
      let (start, c) ← tagText true [] (c.skipWhile isBlank)
      if !c.atGap then none
      some (Token.tagDirective (String.ofList h) start, c)
    else none
  let c := c.skipWhile isBlank
  let c := if c.sees '#' then c.skipWhile fun x => !isBreak x else c
  if c.atLineEnd then some (t, c.takeBreak.2) else none

end GridBench.Yaml.Property
