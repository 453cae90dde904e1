import SplitTest.Number.Shortest

/-
  How doubles are written.
  `Binary64.render` writes the shortest digits, positionally from 0.00001 up to below 10^16 and
  with an exponent otherwise. `Binary64.fixed` writes a given number of places.
-/

namespace SplitTest.Binary64

-- The powers here are those of whole numbers, whichever library stands behind `^`.
attribute [local instance (high)] instPowNat

/-- The least exponent of the leading digit that is written positionally. -/
def leastPositional : Int := -5

/-- The greatest exponent of the leading digit that is written positionally. -/
def greatestPositional : Int := 15

/-- The text of an exponent: always signed, without padding. -/
def renderExponent (e : Int) : List Char :=
  'e' :: (if e < 0 then '-' else '+') :: Nat.toDigits 10 e.natAbs

/-- Digits with the point after the first `point` of them, `0 < point`. -/
def renderPositional (digits : List Char) (point : Int) : List Char :=
  if point ≤ 0 then
    '0' :: '.' :: (List.replicate (-point).toNat '0' ++ digits)
  else
    let whole := digits.take point.toNat
    let rest := digits.drop point.toNat
    whole ++ List.replicate (point.toNat - digits.length) '0' ++
      '.' :: (if rest.isEmpty then ['0'] else rest)

/-- Digits with the point after the first, and an exponent. -/
def renderScientific (digits : List Char) (e : Int) : List Char :=
  match digits with
  | [] => []
  | [d] => d :: renderExponent e
  | d :: rest => d :: '.' :: (rest ++ renderExponent e)

/-- Digits without the zeros at their end. -/
def dropTrailingZeros (digits : List Char) : List Char :=
  (digits.reverse.dropWhile (· == '0')).reverse

/-- The text of a positive decimal. -/
def renderDecimal (d : Decimal) : List Char :=
  let all := Nat.toDigits 10 d.digits
  let point := d.exponent + all.length
  let digits := dropTrailingZeros all
  if leastPositional ≤ point - 1 ∧ point - 1 ≤ greatestPositional then
    renderPositional digits point
  else
    renderScientific digits (point - 1)

/-- The text of a finite magnitude. -/
def renderMagnitude (rank : Magnitude) : List Char :=
  if rank.val = 0 then ['0', '.', '0'] else renderDecimal (Decimal.shortest rank.val)

/-- The text of a finite double; there is none for the others. -/
def render? : Binary64 → Option (List Char)
  | finite negative rank =>
    some (if negative then '-' :: renderMagnitude rank else renderMagnitude rank)
  | _ => none

/-- A magnitude times a power of ten, rounded half to even. -/
def scaledRound (places : Nat) (rank : Magnitude) : Nat :=
  roundHalfEven (unitsOf rank.val * 10 ^ places) (2 ^ unitExponent)

/-- A number of hundredths, thousandths and so on, with that many places. -/
def renderPlaces (places n : Nat) : List Char :=
  let digits := Nat.toDigits 10 n
  let padded := List.replicate (places + 1 - digits.length) '0' ++ digits
  let whole := padded.take (padded.length - places)
  let rest := padded.drop (padded.length - places)
  if places = 0 then whole else whole ++ '.' :: rest

/-- A double with a fixed number of places, halves to even; the sign stays even on a zero. -/
def fixed (places : Nat) : Binary64 → List Char
  | nan => ['n', 'a', 'n']
  | infinite negative => (if negative then ['-'] else []) ++ ['i', 'n', 'f']
  | finite negative rank =>
    (if negative then ['-'] else []) ++ renderPlaces places (scaledRound places rank)

end SplitTest.Binary64
