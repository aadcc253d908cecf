/-
  GridBench.Yaml.Token.Lexer

  From text to tokens.  What makes a table is often seen only at the colon
  behind its first key, so the place of a possible key is remembered, one for
  each level of brackets, and the tokens that open the table and mark the key
  are put in there later.
-/
import GridBench.Yaml.Token.Scalar
import GridBench.Yaml.Token.Property

namespace GridBench.Yaml

/-- A place where a key may have started: the number of its token and where it stands.  A key
    is required if a table is already open at its column. -/
structure PossibleKey where
  token : Nat
  index : Nat
  line : Nat
  column : Nat
  required : Bool

/-- The state of the lexer between two tokens. -/
structure Lexer where
  cursor : Cursor
  tokens : Array Token := #[]
  /-- Column of the innermost open block, negative outside all blocks. -/
  indent : Int := -1
  /-- Columns of the blocks around it. -/
  outer : List Int := []
  /-- Whether a key may start here. -/
  keyAllowed : Bool := true
  /-- The possible key of the innermost level of brackets. -/
  key : Option PossibleKey := none
  /-- The possible keys of the levels around it. -/
  outerKeys : List (Option PossibleKey) := []

namespace Lexer

/-- Whether the lexer is inside brackets. -/
def inFlow (l : Lexer) : Bool := !l.outerKeys.isEmpty

def push (l : Lexer) (t : Token) : Lexer := { l with tokens := l.tokens.push t }

/-- Gives up the possible key, which must not be a required one. -/
def dropKey (l : Lexer) : Option Lexer :=
  match l.key with
  | some k => if k.required then none else some { l with key := none }
  | none => some l

/-- Remembers that a key may start here. -/
def saveKey (l : Lexer) : Option Lexer :=
  if !l.keyAllowed then some l
  else do
    let l ← l.dropKey
    let c := l.cursor
    some { l with
      key := some ⟨l.tokens.size, c.index, c.line, c.column, !l.inFlow && l.indent = c.column⟩ }

/-- A possible key expires at the end of its line and after 1024 characters. -/
def expire (c : Cursor) (key : Option PossibleKey) : Option (Option PossibleKey) :=
  match key with
  | none => some none
  | some k =>
    if k.line < c.line || k.index + 1024 < c.index then if k.required then none else some none
    else some (some k)

def expireKeys (l : Lexer) : Option Lexer := do
  let key ← expire l.cursor l.key
  let outerKeys ← l.outerKeys.mapM (expire l.cursor)
  some { l with key := key, outerKeys := outerKeys }

/-- Opens a block at a column if none is open there, by a token put in at place `at?`, or at the end. -/
def roll (l : Lexer) (column : Nat) (place : Option Nat) (t : Token) : Lexer :=
  if l.inFlow || column ≤ l.indent then l
  else
    let tokens := match place with
      | some i => l.tokens.insertIdxIfInBounds i t
      | none => l.tokens.push t
    { l with tokens := tokens, indent := column, outer := l.indent :: l.outer }

/-- Closes the blocks to the right of a column. -/
def unrollFrom (column : Int) : List Int → Int → Array Token → List Int × Int × Array Token
  | i :: outer, indent, tokens =>
    if column < indent then unrollFrom column outer i (tokens.push .blockEnd)
    else (i :: outer, indent, tokens)
  | [], indent, tokens => ([], indent, tokens)

def unroll (l : Lexer) (column : Int) : Lexer :=
  if l.inFlow then l
  else
    let (outer, indent, tokens) := unrollFrom column l.outer l.indent l.tokens
    { l with outer := outer, indent := indent, tokens := tokens }

/-- Moves behind blanks, comments and line breaks.  A tab may not stand where a key may start;
    a mark of the byte order may start each line. -/
def skipGap : Nat → Lexer → Lexer
  | 0, l => l
  | fuel + 1, l =>
    let tabs := l.inFlow || !l.keyAllowed
    let c := l.cursor.skipByteOrderMark.skipWhile fun x => x = ' ' || (tabs && x = '\t')
    let c := if c.sees '#' then c.skipWhile fun x => !isBreak x else c
    if c.atBreak then
      let c := c.takeBreak.2
      skipGap fuel { l with cursor := c, keyAllowed := l.keyAllowed || !l.inFlow }
    else { l with cursor := c }

/-- A token outside all blocks that takes `n` characters. -/
def marker (l : Lexer) (t : Token) (n : Nat) : Option Lexer := do
  let l ← (l.unroll (-1)).dropKey
  some { l.push t with keyAllowed := false, cursor := l.cursor.skip n }

def directive (l : Lexer) : Option Lexer := do
  let l ← (l.unroll (-1)).dropKey
  let (t, c) ← Property.directive l.cursor
  some { l.push t with keyAllowed := false, cursor := c }

/-- An opening bracket. -/
def openFlow (l : Lexer) (t : Token) : Option Lexer := do
  let l ← l.saveKey
  some { l.push t with
    keyAllowed := true, cursor := l.cursor.skip, key := none, outerKeys := l.key :: l.outerKeys }

/-- A closing bracket. -/
def closeFlow (l : Lexer) (t : Token) : Option Lexer := do
  let l ← l.dropKey
  let (key, outerKeys) := match l.outerKeys with
    | k :: ks => (k, ks)
    | [] => (none, [])
  some { l.push t with
    keyAllowed := false, cursor := l.cursor.skip, key := key, outerKeys := outerKeys }

def flowEntry (l : Lexer) : Option Lexer := do
  let l ← l.dropKey
  some { l.push .flowEntry with keyAllowed := true, cursor := l.cursor.skip }

/-- A dash before an item. -/
def blockEntry (l : Lexer) : Option Lexer := do
  if !l.inFlow && !l.keyAllowed then none
  let l ← (l.roll l.cursor.column none .blockListStart).dropKey
  some { l.push .blockEntry with keyAllowed := true, cursor := l.cursor.skip }

/-- A question mark before a key. -/
def explicitKey (l : Lexer) : Option Lexer := do
  if !l.inFlow && !l.keyAllowed then none
  let l ← (l.roll l.cursor.column none .blockTableStart).dropKey
  some { l.push .key with keyAllowed := !l.inFlow, cursor := l.cursor.skip }

/-- A colon before a value.  If a key may have started before it, the key is marked now. -/
def value (l : Lexer) : Option Lexer :=
  match l.key with
  | some k =>
    let l := { l with tokens := l.tokens.insertIdxIfInBounds k.token .key }
    let l := l.roll k.column (some k.token) .blockTableStart
    some { l.push .value with key := none, keyAllowed := false, cursor := l.cursor.skip }
  | none => do
    if !l.inFlow && !l.keyAllowed then none
    let l := l.roll l.cursor.column none .blockTableStart
    some { l.push .value with keyAllowed := !l.inFlow, cursor := l.cursor.skip }

/-- A token that may start a key but allows none right behind it. -/
def mayBeKey (l : Lexer) (read : Cursor → Option (Token × Cursor)) : Option Lexer := do
  let l ← l.saveKey
  let (t, c) ← read l.cursor
  some { l.push t with keyAllowed := false, cursor := c }

def quotedScalar (l : Lexer) (single : Bool) : Option Lexer :=
  l.mayBeKey fun c => (ScalarToken.quoted single c).map fun (s, c) => (.scalar s.text s.style, c)

def plainScalar (l : Lexer) : Option Lexer := do
  let l ← l.saveKey
  let (s, c) ← ScalarToken.plain l.inFlow (l.indent + 1).toNat l.cursor
  some { l.push (.scalar s.text s.style) with keyAllowed := s.endsLine, cursor := c }

def blockScalar (l : Lexer) (literal : Bool) : Option Lexer := do
  let l ← l.dropKey
  let (s, c) ← ScalarToken.block literal l.indent l.cursor
  some { l.push (.scalar s.text s.style) with keyAllowed := true, cursor := c }

/-- Whether a plain scalar may start here. -/
def atPlain (l : Lexer) : Bool :=
  let c := l.cursor
  (!c.atGap && !c.seesAny
      ['-', '?', ':', ',', '[', ']', '\x7b', '\x7d', '#', '&', '*', '!', '|', '>', '\'', '"', '%',
        '@', '`'])
    || (c.sees '-' && !c.atBlank 1)
    || (!l.inFlow && (c.sees '?' || c.sees ':') && !c.atGap 1)

/-- Reads one token at a place that is no gap. -/
def token (l : Lexer) : Option Lexer :=
  let c := l.cursor
  if c.column = 0 && c.sees '%' then l.directive
  else if c.atDocumentMarker then l.marker (if c.sees '-' then .documentStart else .documentEnd) 3
  else if c.sees '[' then l.openFlow .flowListStart
  else if c.sees '\x7b' then l.openFlow .flowTableStart
  else if c.sees ']' then l.closeFlow .flowListEnd
  else if c.sees '\x7d' then l.closeFlow .flowTableEnd
  else if c.sees ',' then l.flowEntry
  else if c.sees '-' && c.atGap 1 then l.blockEntry
  else if c.sees '?' && (l.inFlow || c.atGap 1) then l.explicitKey
  else if c.sees ':' && (l.inFlow || c.atGap 1) then l.value
  else if c.sees '*' then
    l.mayBeKey fun c => (Property.anchorName c).map fun (n, c) => (.alias n, c)
  else if c.sees '&' then
    l.mayBeKey fun c => (Property.anchorName c).map fun (n, c) => (.anchor n, c)
  else if c.sees '!' then l.mayBeKey (Property.tag l.inFlow)
  else if c.sees '|' && !l.inFlow then l.blockScalar true
  else if c.sees '>' && !l.inFlow then l.blockScalar false
  else if c.sees '\'' then l.quotedScalar true
  else if c.sees '"' then l.quotedScalar false
  else if l.atPlain then l.plainScalar
  else none

/-- Closes everything at the end of the text. -/
def finish (l : Lexer) : Option (Array Token) := do
  let l ← (l.unroll (-1)).dropKey
  some l.tokens

/-- Reads token after token. -/
def run : Nat → Lexer → Option (Array Token)
  | 0, _ => none
  | fuel + 1, l => do
    let l ← (skipGap (l.cursor.rest.length + 1) l).expireKeys
    let l := l.unroll l.cursor.column
    if l.cursor.atEnd then l.finish else run fuel (← l.token)

/-- The tokens of a text, if its lexical structure is sound. -/
def tokens? (cs : List Char) : Option (List Token) :=
  (run (cs.length + 2) { cursor := { rest := cs } }).map Array.toList

end Lexer

end GridBench.Yaml
