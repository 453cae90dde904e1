/-
  White space and blank text.
  `isSpace` is the class that decides whether a name, a page or a key is blank; `isWhiteSpace`
  is the smaller Unicode property, used where numbers are read from text.
-/

namespace SplitTest.Text

/-- The characters with the Unicode property White_Space. -/
def isWhiteSpace (c : Char) : Bool :=
  let n := c.toNat
  (9 ≤ n && n ≤ 13) || n == 0x20 || n == 0x85 || n == 0xA0 || n == 0x1680 ||
    (0x2000 ≤ n && n ≤ 0x200A) || n == 0x2028 || n == 0x2029 || n == 0x202F || n == 0x205F ||
    n == 0x3000

/-- White space, the four information separators included. -/
def isSpace (c : Char) : Bool :=
  isWhiteSpace c || (0x1C ≤ c.toNat && c.toNat ≤ 0x1F)

/-- A text is blank when it holds nothing but white space. -/
def isBlank (s : String) : Bool :=
  s.toList.all isSpace

/-- A missing text counts as blank. -/
def isMissing : Option String → Bool
  | none => true
  | some s => isBlank s

/-- Drops the characters of a class at both ends. -/
def trim (p : Char → Bool) (cs : List Char) : List Char :=
  ((cs.dropWhile p).reverse.dropWhile p).reverse

end SplitTest.Text
