import SplitTest.Number.Nearest

/-
  The shortest decimal that reads back as a given double.
  For one digit, two digits and so on, the two decimals next to the value are tried; the first
  that rounds to the double wins, of two the nearer, of two equally near the one with the even
  last digit. Seventeen digits always suffice; the exact expansion ends the search all the same,
  so that every answer reads back by construction.
-/

namespace SplitTest

-- The powers here are those of whole numbers, whichever library stands behind `^`.
attribute [local instance (high)] instPowNat

/-- A decimal: `digits * 10 ^ exponent`. -/
structure Decimal where
  digits : Nat
  exponent : Int
  deriving DecidableEq, Repr

namespace Decimal

/-- The rank nearest a decimal. -/
def rank (d : Decimal) : Nat :=
  if 0 ≤ d.exponent then Binary64.nearestRank (d.digits * 10 ^ d.exponent.toNat) 1
  else Binary64.nearestRank d.digits (10 ^ (-d.exponent).toNat)

/-- How many digits a positive value of that many units has before the point; for a value below
one, less the zeros that follow the point. -/
def wholeDigits (units : Nat) : Int :=
  let one := 2 ^ Binary64.unitExponent
  if one ≤ units then ((Nat.toDigits 10 (units / one)).length : Int)
  else 1 - ((Nat.toDigits 10 (one / units)).length : Int)

/-- The better of the two decimals with exponent `exponent` next to a value, if one rounds to the
given rank. -/
def candidate (target units : Nat) (exponent : Int) : Option Decimal :=
  let num := if 0 ≤ exponent then units else units * 10 ^ (-exponent).toNat
  let den := 2 ^ Binary64.unitExponent * (if 0 ≤ exponent then 10 ^ exponent.toNat else 1)
  let low : Decimal := ⟨num / den, exponent⟩
  let high : Decimal := ⟨num / den + 1, exponent⟩
  let rest := num % den
  let lowFirst := 2 * rest < den ∨ (2 * rest = den ∧ low.digits % 2 = 0)
  let order := if lowFirst then [low, high] else [high, low]
  order.find? fun d => d.rank = target

/-- The exact value of that many units as a decimal. -/
def exact (units : Nat) : Decimal :=
  ⟨units * 5 ^ Binary64.unitExponent, -(Binary64.unitExponent : Int)⟩

/-- The shortest decimal that reads back as the magnitude of a rank. -/
def shortest (rank : Nat) : Decimal :=
  let units := Binary64.unitsOf rank
  let whole := wholeDigits units
  ((List.range 17).findSome? fun n => candidate rank units (whole - (n + 1 : Nat))).getD
    (exact units)

theorem rank_candidate {target units : Nat} {exponent : Int} {d : Decimal}
    (h : candidate target units exponent = some d) : d.rank = target := by
  have := List.find?_some h
  simpa using this

end Decimal

end SplitTest
