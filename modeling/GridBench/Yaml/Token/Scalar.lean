/-
  GridBench.Yaml.Token.Scalar

  The lexical rules of scalars: plain ones, quoted ones, and those written as
  indented blocks.  White space between two parts of a plain or quoted scalar
  is folded: a single line break stands for a space, and further ones for
  themselves.
-/
import GridBench.Yaml.Cursor
import GridBench.Yaml.Node
import GridBench.Json.Reader

namespace GridBench.Yaml

/-- White space inside a scalar: the blanks before the first line break, that break, and the
    later ones. -/
structure Gap where
  blanks : List Char := []
  firstBreak : List Char := []
  otherBreaks : List Char := []
  broken : Bool := false

namespace Gap

/-- The characters that folded white space stands for. -/
def fold (g : Gap) : List Char :=
  if g.broken then
    if g.firstBreak = ['\n'] then if g.otherBreaks.isEmpty then [' '] else g.otherBreaks
    else g.firstBreak ++ g.otherBreaks
  else g.blanks

/-- Reads white space.  Behind a line break, no tab may stand before column `indent`. -/
def read (indent : Nat) : Nat → Gap → Cursor → Option (Gap × Cursor)
  | 0, g, c => some (g, c)
  | fuel + 1, g, c =>
    match c.peek? with
    | none => some (g, c)
    | some x =>
      if isBlank x then
        if g.broken && c.column < indent && x = '\t' then none
        else if g.broken then read indent fuel g c.skip
        else read indent fuel { g with blanks := g.blanks ++ [x] } c.skip
      else if isBreak x then
        let (b, c) := c.takeBreak
        if g.broken then read indent fuel { g with otherBreaks := g.otherBreaks ++ b } c
        else read indent fuel { g with blanks := [], firstBreak := b, broken := true } c
      else some (g, c)

end Gap

/-- A scalar's text, its style, and whether a line break stands behind it that was read along. -/
structure ScalarToken where
  text : String
  style : ScalarStyle
  endsLine : Bool

namespace ScalarToken

/-- A plain scalar up to the next white space or indicator, the last character first.  Inside
    brackets the indicators of lists and tables end it. -/
def plainRun (flow : Bool) : Nat → List Char → Cursor → Option (List Char × Cursor)
  | 0, acc, c => some (acc, c)
  | fuel + 1, acc, c =>
    match c.peek? with
    | none => some (acc, c)
    | some x =>
      if isBlank x || isBreak x then some (acc, c)
      else if flow && x = ':' && c.seesAny [',', '?', '[', ']', '\x7b', '\x7d'] 1 then none
      else if (x = ':' && c.atGap 1)
          || (flow && [',', '[', ']', '\x7b', '\x7d'].contains x) then some (acc, c)
      else plainRun flow fuel (x :: acc) c.skip

/-- The parts of a plain scalar; `gap` is the white space read before the current part. -/
def plainParts (flow : Bool) (indent : Nat) :
    Nat → List Char → Gap → Cursor → Option (ScalarToken × Cursor)
  | 0, _, _, _ => none
  | fuel + 1, acc, gap, c =>
    let finish (acc : List Char) (gap : Gap) (c : Cursor) : ScalarToken × Cursor :=
      (⟨String.ofList acc.reverse, .plain, gap.broken⟩, c)
    if c.atDocumentMarker || c.sees '#' then some (finish acc gap c)
    else do
      let (run, c') ← plainRun flow (c.rest.length + 1) [] c
      let (acc, gap) := if run.isEmpty then (acc, gap) else (run ++ gap.fold.reverse ++ acc, {})
      if c'.atBlank || c'.atBreak then
        let (gap, c'') ← Gap.read indent (c'.rest.length + 1) {} c'
        if !flow && c''.column < indent then some (finish acc gap c'')
        else plainParts flow indent fuel acc gap c''
      else some (finish acc gap c')

/-- A plain scalar.  Outside brackets it goes on as long as its lines are indented enough. -/
def plain (flow : Bool) (indent : Nat) (c : Cursor) : Option (ScalarToken × Cursor) :=
  plainParts flow indent (c.rest.length + 1) [] {} c

/-- The character of a one-letter escape. -/
def escaped? (x : Char) : Option Char :=
  let table : List (Char × Nat) := [
    ('0', 0), ('a', 7), ('b', 8), ('t', 9), ('\t', 9), ('n', 10), ('v', 11), ('f', 12), ('r', 13),
    ('e', 27), (' ', 32), ('"', 34), ('/', 47), ('\\', 92), ('N', 0x85), ('_', 0xA0),
    ('L', 0x2028), ('P', 0x2029)]
  (table.lookup x).map Char.ofNat

/-- How many hexadecimal digits follow a letter that escapes a code point. -/
def escapedDigits? (x : Char) : Option Nat :=
  if x = 'x' then some 2 else if x = 'u' then some 4 else if x = 'U' then some 8 else none

/-- The value of hexadecimal digits. -/
def hexValue? (cs : List Char) : Option Nat :=
  cs.foldl (fun acc c => acc.bind fun n => (Json.hexDigit? c).map (16 * n + ·)) (some 0)

/-- The character of an escape that starts behind the backslash. -/
def escape (c : Cursor) : Option (Char × Cursor) :=
  match c.peek? with
  | none => none
  | some x =>
    match escapedDigits? x with
    | none => (escaped? x).map fun y => (y, c.skip)
    | some n =>
      let digits := (c.rest.drop 1).take n
      if digits.length < n then none
      else
        match hexValue? digits with
        | none => none
        | some v =>
          if (0xD800 ≤ v && v ≤ 0xDFFF) || 0x10FFFF < v then none
          else some (Char.ofNat v, c.skip (n + 1))

/-- A part of a quoted scalar up to white space or the closing quote, the last character first,
    and whether it ended in an escaped line break. -/
def quotedRun (single : Bool) : Nat → List Char → Cursor → Option (List Char × Bool × Cursor)
  | 0, acc, c => some (acc, false, c)
  | fuel + 1, acc, c =>
    match c.peek? with
    | none => some (acc, false, c)
    | some x =>
      if isBlank x || isBreak x then some (acc, false, c)
      else if single && x = '\'' && c.sees '\'' 1 then quotedRun single fuel ('\'' :: acc) (c.skip 2)
      else if x = (if single then '\'' else '"') then some (acc, false, c)
      else if !single && x = '\\' && c.atBreak 1 then some (acc, true, (c.skip.takeBreak).2)
      else if !single && x = '\\' then do
        let (y, c) ← escape c.skip
        quotedRun single fuel (y :: acc) c
      else quotedRun single fuel (x :: acc) c.skip

/-- The parts of a quoted scalar up to the closing quote. -/
def quotedParts (single : Bool) : Nat → List Char → Cursor → Option (List Char × Cursor)
  | 0, _, _ => none
  | fuel + 1, acc, c =>
    if c.atDocumentMarker || c.atEnd then none
    else do
      let (acc, escapedBreak, c) ← quotedRun single (c.rest.length + 1) acc c
      if c.sees (if single then '\'' else '"') then some (acc, c.skip)
      else
        let start : Gap := { broken := escapedBreak }
        let (gap, c) ← Gap.read 0 (c.rest.length + 1) start c
        quotedParts single fuel (gap.fold.reverse ++ acc) c

/-- A scalar between single or double quotes. -/
def quoted (single : Bool) (c : Cursor) : Option (ScalarToken × Cursor) := do
  let (acc, c) ← quotedParts single (2 * c.rest.length + 2) [] c.skip
  some (⟨String.ofList acc.reverse, if single then .singleQuoted else .doubleQuoted, false⟩, c)

/-- What becomes of the line breaks at the end of a block scalar. -/
inductive Chomping where
  | strip
  | clip
  | keep
deriving DecidableEq

/-- The indicators behind `|` or `>`: chomping and depth of indentation, in either order. -/
def blockHeader (c : Cursor) : Option (Chomping × Nat × Cursor) :=
  let chomping? (c : Cursor) : Option Chomping :=
    if c.sees '+' then some .keep else if c.sees '-' then some .strip else none
  let digit? (c : Cursor) : Option Nat :=
    (c.peek?).bind fun x => if x.isDigit then some (x.toNat - '0'.toNat) else none
  match chomping? c with
  | some k =>
    let c := c.skip
    match digit? c with
    | some 0 => none
    | some n => some (k, n, c.skip)
    | none => some (k, 0, c)
  | none =>
    match digit? c with
    | some 0 => none
    | some n =>
      let c := c.skip
      match chomping? c with
      | some k => some (k, n, c.skip)
      | none => some (.clip, n, c)
    | none => some (.clip, 0, c)

/-- Reads empty lines and the indentation of the next line.  With `indent = 0` the depth is not
    known yet and is found from the deepest of these lines. -/
def blockBreaks (indent : Nat) :
    Nat → Nat → List Char → Cursor → Option (Nat × List Char × Cursor)
  | 0, _, _, _ => none
  | fuel + 1, deepest, breaks, c =>
    let c := c.skip ((c.rest.takeWhile (· = ' ')).length.min
      (if indent = 0 then c.rest.length else indent - c.column))
    let deepest := max deepest c.column
    if (indent = 0 || c.column < indent) && c.sees '\t' then none
    else if c.atBreak then
      let (b, c) := c.takeBreak
      blockBreaks indent fuel deepest (breaks ++ b) c
    else some (deepest, breaks, c)

/-- The lines of a block scalar, the last character first.  In folded style a line break between
    two lines that do not start with a blank stands for a space. -/
def blockLines (literal : Bool) (indent : Nat) :
    Nat → List Char → List Char → List Char → Bool → Cursor →
      Option (List Char × List Char × List Char × Cursor)
  | 0, _, _, _, _, _ => none
  | fuel + 1, acc, lead, trail, leadBlank, c =>
    if c.column = indent && !c.atEnd then
      let blank := c.atBlank
      let folded := !literal && lead = ['\n'] && !leadBlank && !blank
      let between :=
        if folded then if trail.isEmpty then [' '] else trail
        else lead ++ trail
      let (line, c) := c.takeWhile fun x => !isBreak x
      let (lead, c) := c.takeBreak
      match blockBreaks indent (c.rest.length + 1) 0 [] c with
      | none => none
      | some (_, trail, c) =>
        blockLines literal indent fuel (line.reverse ++ between.reverse ++ acc) lead trail blank c
    else some (acc, lead, trail, c)

/-- A scalar written as a block below the indentation `outer`, which is negative outside all
    blocks. -/
def block (literal : Bool) (outer : Int) (c : Cursor) : Option (ScalarToken × Cursor) := do
  let (chomping, depth, c) ← blockHeader c.skip
  let c := c.skipWhile isBlank
  let c := if c.sees '#' then c.skipWhile fun x => !isBreak x else c
  if !c.atLineEnd then none
  let (_, c) := c.takeBreak
  let least := (outer + 1).toNat
  let given := if depth = 0 then 0 else if 0 ≤ outer then outer.toNat + depth else depth
  let (deepest, trail, c) ← blockBreaks given (c.rest.length + 1) 0 [] c
  let indent := if given = 0 then max (max deepest least) 1 else given
  let (acc, lead, trail, c) ← blockLines literal indent (c.rest.length + 2) [] [] trail false c
  let ending :=
    match chomping with
    | .strip => []
    | .clip => lead
    | .keep => lead ++ trail
  some (⟨String.ofList (acc.reverse ++ ending), if literal then .literal else .folded, false⟩, c)

end ScalarToken

end GridBench.Yaml
