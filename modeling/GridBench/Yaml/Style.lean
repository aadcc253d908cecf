/-
  GridBench.Yaml.Style

  In which style a string is written.  A string stays plain if it then reads
  back as a string; one with line feeds becomes a literal block; what neither a
  plain scalar, single quotes nor a block can hold goes between double quotes.
-/
import GridBench.Yaml.Core
import GridBench.Yaml.Cursor

namespace GridBench.Yaml

/-- Whether a written document shows a character as it is. -/
def isShown (c : Char) : Bool :=
  let n := c.toNat
  n = 0xA || (0x20 ≤ n && n ≤ 0x7E) || (0xA0 ≤ n && n ≤ 0xD7FF)
    || (0xE000 ≤ n && n ≤ 0xFFFD && n ≠ 0xFEFF) || 0x10000 ≤ n

/-- Characters that a plain scalar may not start with. -/
def leadingIndicators : List Char :=
  ['#', ',', '[', ']', '\x7b', '\x7d', '&', '*', '!', '|', '>', '\'', '"', '%', '@', '`']

/-- Whether a character or the end separates words. -/
def separates (c : Option Char) : Bool := c.all fun x => isBlank x || isBreak x

/-- Whether a character behind `before` and in front of the rest takes part in the structure of
    a document. -/
def indicatesInside (before : Char) (c : Char) (rest : List Char) : Bool :=
  (c = ':' && separates rest.head?) || (c = '#' && separates (some before))

def anyIndicatesInside : Char → List Char → Bool
  | _, [] => false
  | before, c :: rest => indicatesInside before c rest || anyIndicatesInside c rest

/-- Whether plain text would be read as structure. -/
def hasIndicators (cs : List Char) : Bool :=
  match cs with
  | [] => false
  | c :: rest =>
    cs.take 3 = ['-', '-', '-'] || cs.take 3 = ['.', '.', '.']
      || leadingIndicators.contains c
      || ((c = '?' || c = ':' || c = '-') && separates rest.head?)
      || anyIndicatesInside c rest

/-- Whether a character of the first kind comes right before one of the second. -/
def hasPair (p q : Char → Bool) : List Char → Bool
  | a :: b :: rest => (p a && q b) || hasPair p q (b :: rest)
  | _ => false

/-- What a text contains, as far as styles depend on it. -/
structure TextTraits where
  indicators : Bool
  hidden : Bool
  breaks : Bool
  edges : Bool
  trailingSpace : Bool
  spaceAfterBreak : Bool
  spaceBeforeBreak : Bool

namespace TextTraits

def ofChars (cs : List Char) : TextTraits :=
  let isSpace (c : Char) : Bool := c = ' '
  let isEdge (c : Char) : Bool := isSpace c || isBreak c
  { indicators := hasIndicators cs
    hidden := cs.any fun c => !isShown c
    breaks := cs.any isBreak
    edges := cs.head?.any isEdge || cs.getLast?.any isEdge
    trailingSpace := cs.getLast?.any isSpace
    spaceAfterBreak := hasPair isBreak isSpace cs
    spaceBeforeBreak := hasPair isSpace isBreak cs }

def plainAllowed (t : TextTraits) : Bool :=
  !t.edges && !t.spaceAfterBreak && !t.spaceBeforeBreak && !t.hidden && !t.breaks && !t.indicators

def singleAllowed (t : TextTraits) : Bool :=
  !t.spaceAfterBreak && !t.spaceBeforeBreak && !t.hidden

def blockAllowed (t : TextTraits) : Bool :=
  !t.trailingSpace && !t.spaceBeforeBreak && !t.hidden

end TextTraits

/-- Whether a text would not read back as a string if it were written plain. -/
def needsQuotes (s : String) : Bool :=
  match coreValue s with
  | .text _ => hasLeadingZero s.toList
  | _ => true

/-- The style a string is written in. -/
def ScalarStyle.ofText (s : String) : ScalarStyle :=
  let cs := s.toList
  let t := TextTraits.ofChars cs
  let quoted : ScalarStyle := if t.singleAllowed then .singleQuoted else .doubleQuoted
  if cs.contains '\n' then if t.blockAllowed then .literal else .doubleQuoted
  else if needsQuotes s then quoted
  else if t.plainAllowed then .plain
  else quoted

end GridBench.Yaml
