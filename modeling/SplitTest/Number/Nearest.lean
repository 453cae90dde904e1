import SplitTest.Number.Binary64

/-
  Rounding to the nearest double.
  A ratio of natural numbers is compared with the middle between its two neighbouring doubles, in
  exact arithmetic; a ratio in the middle goes to the neighbour of even rank.
-/

namespace SplitTest

-- The powers here are those of whole numbers, whichever library stands behind `^`.
attribute [local instance (high)] instPowNat

/-- The whole number nearest a ratio, halves to the even one. -/
def roundHalfEven (num den : Nat) : Nat :=
  let whole := num / den
  let rest := num % den
  if 2 * rest < den then whole else if den < 2 * rest then whole + 1 else whole + whole % 2

/-- The whole number nearest a ratio, halves upward. -/
def roundHalfUp (num den : Nat) : Nat :=
  (2 * num + den) / (2 * den)

namespace Binary64

/-- The greatest rank whose value is at most the given number of units. -/
def rankBelow (units : Nat) : Nat :=
  if units < 2 ^ (52 : Nat) then units
  else
    let shift := units.log2 - 52
    shift * 2 ^ (52 : Nat) + units / 2 ^ shift

/-- The rank nearest `num / den`, which may lie beyond the finite ones. -/
def nearestRank (num den : Nat) : Nat :=
  let scaled := num * 2 ^ unitExponent
  let low := rankBelow (scaled / den)
  let middle := (unitsOf low + unitsOf (low + 1)) * den
  if 2 * scaled < middle then low else if middle < 2 * scaled then low + 1 else low + low % 2

/-- The double of a rank; ranks beyond the finite ones are infinite. -/
def ofRank (negative : Bool) (rank : Nat) : Binary64 :=
  if h : rank < 2047 * 2 ^ (52 : Nat) then .finite negative ⟨rank, h⟩ else .infinite negative

/-- The double nearest `num / den`. -/
def ofRatio (negative : Bool) (num den : Nat) : Binary64 :=
  ofRank negative (nearestRank num den)

/-- The double nearest `digits * 10 ^ exponent`. Exponents far outside the range of doubles are
answered without computing the power. -/
def ofDecimal (negative : Bool) (digits : Nat) (exponent : Int) : Binary64 :=
  if digits = 0 then .finite negative 0
  else if 400 < exponent then .infinite negative
  else if exponent < -400 - (digits.log2 + 1 : Nat) then .finite negative 0
  else if 0 ≤ exponent then ofRatio negative (digits * 10 ^ exponent.toNat) 1
  else ofRatio negative digits (10 ^ (-exponent).toNat)

/-- The double nearest a whole number. -/
def ofInt (n : Int) : Binary64 :=
  ofRatio (n < 0) n.natAbs 1

/-- The whole part of a magnitude. -/
def wholePart (rank : Magnitude) : Nat :=
  unitsOf rank.val / 2 ^ unitExponent

/-- What is left of a magnitude beside its whole part, in units. -/
def fractionUnits (rank : Magnitude) : Nat :=
  unitsOf rank.val % 2 ^ unitExponent

/-- The whole number that a double stands for, if it stands for one. -/
def toInt? : Binary64 → Option Int
  | finite negative rank =>
    if fractionUnits rank = 0 then
      some (if negative then -(wholePart rank : Int) else wholePart rank)
    else none
  | _ => none

end Binary64

end SplitTest
