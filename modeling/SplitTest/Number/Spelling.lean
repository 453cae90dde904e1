import SplitTest.Number.Numeral
import SplitTest.Text.Blank

/-
  The spellings of numbers in text.
  White space may stand around a number and single underscores within it. Zeros in front of a
  whole number say nothing, and neither does a fraction of zeros behind it; what is left when both
  are gone must be a whole number as JSON has it.
-/

namespace SplitTest.Spelling

/-! ## Underscores -/

/-- Whether two underscores stand side by side. -/
def hasDouble : List Char → Bool
  | a :: b :: rest => (a == '_' && b == '_') || hasDouble (b :: rest)
  | _ => false

/-- The text without its underscores, if each of them has another character on either side. -/
def ungrouped? (cs : List Char) : Option (List Char) :=
  if cs.head? = some '_' ∨ cs.getLast? = some '_' ∨ hasDouble cs then none
  else some (cs.filter (· != '_'))

/-! ## Whole numbers -/

/-- Why a text is no whole number. -/
inductive WholeFault
  /-- It has none of the accepted forms. -/
  | malformed
  /-- It has too many digits. -/
  | tooLong
  deriving DecidableEq, Repr

/-- Drops zeros, with the underscores among them, after at least one zero. The last character is
kept when nothing but a fraction follows. -/
def dropMoreZeros (last : Char) : List Char → Option (List Char)
  | [] => some [last]
  | c :: rest =>
    if c = '0' ∨ c = '_' then dropMoreZeros c rest
    else if c = '.' then some (last :: c :: rest)
    else if c = '-' ∨ c.isDigit then some (c :: rest)
    else none

/-- Drops the zeros in front of a number that starts with a digit. -/
def dropZeros : List Char → Option (List Char)
  | [] => none
  | c :: rest =>
    if c = '0' then dropMoreZeros c rest
    else if c.isDigit then some (c :: rest)
    else none

/-- Drops a fraction that holds zeros only. -/
def dropZeroFraction (cs : List Char) : List Char :=
  let fraction := (cs.dropWhile (· != '.')).drop 1
  if fraction ≠ [] ∧ fraction.all (· == '0') then cs.takeWhile (· != '.') else cs

/-- Reads digits: a single zero, or a number that starts with another digit. A number that is too
long is one whatever follows it. -/
def readDigits (cs : List Char) : Except WholeFault Nat :=
  let (digits, rest) := splitDigits cs
  if digits.head? = some '0' then
    if digits = ['0'] ∧ rest = [] then .ok 0 else .error .malformed
  else if Numeral.longest < digits.length then .error .tooLong
  else if digits = [] ∨ rest ≠ [] then .error .malformed
  else .ok (digitsValue digits)

/-- Reads digits behind a minus sign, if there is one. -/
def readSigned : List Char → Except WholeFault Int
  | '-' :: rest => (readDigits rest).map fun n => -(n : Int)
  | cs => (readDigits cs).map Int.ofNat

/-- A whole number without what may be left out of it: white space around it, a plus sign, zeros in
front, a fraction of zeros and underscores. Behind the zeros a minus sign may follow, which then is
the only one. -/
def bare? (cs : List Char) : Option (List Char) :=
  let (sign, cs) := splitSign (Text.trim Text.isWhiteSpace cs)
  (dropZeros cs).map fun cs =>
    let cs := dropZeroFraction cs
    let cs := (ungrouped? cs).getD cs
    if sign = some .minus then '-' :: cs else cs

/-- The whole number that a text spells. A text is too long only if it is so as it stands; one that
is too long when it is bare has none of the accepted forms. -/
def whole (s : String) : Except WholeFault Int :=
  match readSigned s.toList with
  | .error .malformed =>
    match (bare? s.toList).map readSigned with
    | some (.ok n) => .ok n
    | _ => .error .malformed
  | result => result

-- Underscores may be doubled, and a sign may stand behind zeros.
example : whole "0__1_0.00 " = .ok 10 := by rfl
example : whole "+0-5" = .ok (-5) := by rfl

/-! ## Doubles -/

/-- The double that a text spells without white space or underscores: a decimal with or without an
exponent, an infinity or NaN. -/
def plain? (cs : List Char) : Option Binary64 :=
  let (sign, word) := splitSign cs
  let word := word.map Char.toLower
  if word = ['i', 'n', 'f'] ∨ word = ['i', 'n', 'f', 'i', 'n', 'i', 't', 'y'] then
    some (.infinite (sign = some .minus))
  else if word = ['n', 'a', 'n'] then some .nan
  else
    match Numeral.read cs with
    | some n => if n.digits ≠ [] then some n.toBinary64 else none
    | none => none

/-- The double that a text spells, with white space around it or with underscores in it, but not
with both. -/
def binary64? (s : String) : Option Binary64 :=
  (plain? (Text.trim Text.isWhiteSpace s.toList)).or ((ungrouped? s.toList).bind plain?)

end SplitTest.Spelling
