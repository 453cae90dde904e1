import SplitTest.Number.Nearest

/-
  The text of a number.
  `Numeral.read` takes a text apart into sign, digits and exponent without judging it; each format
  that numbers come in states which numerals it admits. Values are exact for whole numbers and
  rounded once for the others.
-/

namespace SplitTest

/-- A sign, where one is written. -/
inductive Sign
  | plus
  | minus
  deriving DecidableEq, Repr

/-- The parts of a number's text. -/
structure Numeral where
  sign : Option Sign
  /-- The digits before the point. -/
  whole : List Char
  /-- The digits after the point, if there is a point. -/
  fraction : Option (List Char)
  /-- The sign and digits after the exponent mark, if there is one. -/
  exponent : Option (Option Sign × List Char)
  deriving DecidableEq, Repr

/-- The number that decimal digits spell. -/
def digitsValue (digits : List Char) : Nat :=
  Nat.ofDigitChars 10 digits 0

/-- Splits a sign off a text. -/
def splitSign : List Char → Option Sign × List Char
  | '+' :: rest => (some .plus, rest)
  | '-' :: rest => (some .minus, rest)
  | rest => (none, rest)

/-- Splits the leading digits off a text. -/
def splitDigits (cs : List Char) : List Char × List Char :=
  (cs.takeWhile Char.isDigit, cs.dropWhile Char.isDigit)

namespace Numeral

/-- A text may give a number so many digits in front of the point. -/
def longest : Nat := 4300

/-- Reads what may follow the digits: an exponent, or nothing. -/
def readExponent : List Char → Option (Option (Option Sign × List Char))
  | [] => some none
  | c :: rest =>
    if c = 'e' ∨ c = 'E' then
      let (sign, rest) := splitSign rest
      let (digits, rest) := splitDigits rest
      if digits ≠ [] ∧ rest = [] then some (some (sign, digits)) else none
    else none

/-- Takes a number's text apart. Digits may be missing on either side of the point. -/
def read (cs : List Char) : Option Numeral :=
  let (sign, cs) := splitSign cs
  let (whole, cs) := splitDigits cs
  match cs with
  | '.' :: cs =>
    let (fraction, cs) := splitDigits cs
    (readExponent cs).map fun e => ⟨sign, whole, some fraction, e⟩
  | cs => (readExponent cs).map fun e => ⟨sign, whole, none, e⟩

/-- Whether a minus sign is written. -/
def negative (n : Numeral) : Bool :=
  n.sign = some .minus

/-- All digits, those after the point included. -/
def digits (n : Numeral) : List Char :=
  n.whole ++ n.fraction.getD []

/-- Whether the numeral has neither point nor exponent. -/
def isWhole (n : Numeral) : Bool :=
  n.fraction.isNone && n.exponent.isNone

/-- The power of ten that the digits before the point are multiplied with. -/
def scale (n : Numeral) : Int :=
  match n.exponent with
  | none => 0
  | some (sign, digits) =>
    if sign = some .minus then -(digitsValue digits : Int) else digitsValue digits

/-- The whole number that the digits before the point spell, with the sign. -/
def toInt (n : Numeral) : Int :=
  if n.negative then -(digitsValue n.whole : Int) else digitsValue n.whole

/-- The double nearest the numeral's value. -/
def toBinary64 (n : Numeral) : Binary64 :=
  Binary64.ofDecimal n.negative (digitsValue n.digits) (n.scale - (n.fraction.getD []).length)

end Numeral

end SplitTest
