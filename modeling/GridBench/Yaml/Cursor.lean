/-
  GridBench.Yaml.Cursor

  A place in a YAML text, with the line and column it has on the page, and the
  classes of characters the lexical rules speak of.
-/

namespace GridBench.Yaml

/-- Whether a character ends a line. -/
def isBreak (c : Char) : Bool :=
  c = '\n' || c = '\r' || c.toNat = 0x85 || c.toNat = 0x2028 || c.toNat = 0x2029

/-- Whether a character is a blank within a line. -/
def isBlank (c : Char) : Bool := c = ' ' || c = '\t'

/-- Whether a character may stand in the name of an anchor or directive. -/
def isNameChar (c : Char) : Bool := c.isAlphanum || c = '-' || c = '_'

/-- Whether a document may hold a character at all. -/
def isAllowed (c : Char) : Bool :=
  let n := c.toNat
  n = 0x9 || n = 0xA || n = 0xD || (0x20 ≤ n && n ≤ 0x7E) || n = 0x85
    || (0xA0 ≤ n && n ≤ 0xD7FF) || (0xE000 ≤ n && n ≤ 0xFFFD)
    || (0x10000 ≤ n && n ≤ 0x10FFFF)

/-- Whether a character is the mark of the byte order. -/
def isByteOrderMark (c : Char) : Bool := c.toNat = 0xFEFF

/-- A place in a text: what follows, how many characters came before, and line and column. -/
structure Cursor where
  rest : List Char
  index : Nat := 0
  line : Nat := 0
  column : Nat := 0
deriving Repr

namespace Cursor

/-- The character `n` places ahead. -/
def peek? (c : Cursor) (n : Nat := 0) : Option Char := c.rest[n]?

/-- Whether the character `n` places ahead is `x`. -/
def sees (c : Cursor) (x : Char) (n : Nat := 0) : Bool := c.peek? n == some x

/-- Whether the character ahead is one of `xs`. -/
def seesAny (c : Cursor) (xs : List Char) (n : Nat := 0) : Bool :=
  match c.peek? n with
  | some x => xs.contains x
  | none => false

def atEnd (c : Cursor) : Bool := c.rest.isEmpty

def atBlank (c : Cursor) (n : Nat := 0) : Bool := (c.peek? n).any isBlank

def atBreak (c : Cursor) (n : Nat := 0) : Bool := (c.peek? n).any isBreak

/-- Whether a line or the text ends here. -/
def atLineEnd (c : Cursor) (n : Nat := 0) : Bool := (c.peek? n).all isBreak

/-- Whether a word ends here: at a blank, a line break or the end. -/
def atGap (c : Cursor) (n : Nat := 0) : Bool := (c.peek? n).all fun x => isBlank x || isBreak x

/-- Moves behind `n` characters of the current line. -/
def skip (c : Cursor) (n : Nat := 1) : Cursor :=
  { c with rest := c.rest.drop n, index := c.index + n, column := c.column + n }

/-- Moves behind a line break and returns the character it stands for; a carriage return and a
    line feed together are one break. -/
def takeBreak (c : Cursor) : List Char × Cursor :=
  let next (n : Nat) : Cursor := ⟨c.rest.drop n, c.index + n, c.line + 1, 0⟩
  match c.rest with
  | '\r' :: '\n' :: _ => (['\n'], next 2)
  | x :: _ =>
    if x = '\n' || x = '\r' || x.toNat = 0x85 then (['\n'], next 1)
    else if isBreak x then ([x], next 1)
    else ([], c)
  | [] => ([], c)

/-- Moves behind the characters that satisfy a predicate, none of which ends a line. -/
def takeWhile (c : Cursor) (p : Char → Bool) : List Char × Cursor :=
  let taken := c.rest.takeWhile p
  (taken, c.skip taken.length)

def skipWhile (c : Cursor) (p : Char → Bool) : Cursor := (c.takeWhile p).2

/-- Moves behind a mark of the byte order that starts the line. -/
def skipByteOrderMark (c : Cursor) : Cursor :=
  if c.column = 0 && (c.peek?).any isByteOrderMark then c.skip else c

/-- Whether a line starts here with the marker of a document's start or end. -/
def atDocumentMarker (c : Cursor) : Bool :=
  c.column = 0 && c.atGap 3
    && ((c.sees '-' && c.sees '-' 1 && c.sees '-' 2) || (c.sees '.' && c.sees '.' 1 && c.sees '.' 2))

end Cursor

end GridBench.Yaml
