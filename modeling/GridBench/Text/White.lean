/-
  GridBench.Text.White

  The characters with the Unicode property White_Space, and trimming by them.
-/

namespace GridBench.Text

/-- The Unicode property White_Space. -/
def isWhite (c : Char) : Bool :=
  let n := c.toNat
  (0x9 ≤ n && n ≤ 0xD) || n == 0x20 || n == 0x85 || n == 0xA0 || n == 0x1680
    || (0x2000 ≤ n && n ≤ 0x200A) || n == 0x2028 || n == 0x2029 || n == 0x202F
    || n == 0x205F || n == 0x3000

/-- Drops the longest runs of white characters at both ends of a list. -/
def trimList (cs : List Char) : List Char :=
  ((cs.dropWhile isWhite).reverse.dropWhile isWhite).reverse

/-- Drops the longest runs of white characters at both ends of a text. -/
def trim (s : String) : String := String.ofList (trimList s.toList)

/-- A text is blank when it holds white characters only. -/
def isBlank (s : String) : Bool := s.toList.all isWhite

@[simp] theorem toList_trim (s : String) : (trim s).toList = trimList s.toList := by
  simp [trim]

end GridBench.Text
