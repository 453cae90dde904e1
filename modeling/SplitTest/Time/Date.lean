/-
  Calendar dates from 0001-01-01 to 9999-12-31 and their ordinals, the number of days since the
  first of them. `ofOrdinal` peels off whole cycles of 400, 100, 4 and 1 years, then months.
-/

namespace SplitTest

-- A sum of no whole numbers is the literal 0, whichever library stands behind `sum`.
attribute [local instance (high)] Zero.ofOfNat0

/-- A year, a month from 1 and a day from 1. -/
structure Date where
  year : Nat
  month : Nat
  day : Nat
  deriving DecidableEq, Repr

namespace Date

/-- The number of dates. -/
def days : Nat := 3652059

/-- Every fourth year has a leap day, but of the hundredth years only every fourth. -/
def isLeap (year : Nat) : Bool :=
  year % 4 == 0 && (year % 100 != 0 || year % 400 == 0)

/-- The lengths of the months of a year. -/
def monthLengths (year : Nat) : List Nat :=
  [31, if isLeap year then 29 else 28, 31, 30, 31, 30, 31, 31, 30, 31, 30, 31]

/-- The month and the day exist in that year. -/
def exists? (d : Date) : Bool :=
  1 ≤ d.day && 1 ≤ d.month && d.day ≤ (monthLengths d.year).getD (d.month - 1) 0

/-- The number of days before a year. -/
def daysBeforeYear (year : Nat) : Nat :=
  let y := year - 1
  365 * y + y / 4 - y / 100 + y / 400

/-- The number of days before a month, in its year. -/
def daysBeforeMonth (year month : Nat) : Nat :=
  ((monthLengths year).take (month - 1)).sum

/-- The number of days since 0001-01-01. -/
def toOrdinal (d : Date) : Nat :=
  daysBeforeYear d.year + daysBeforeMonth d.year d.month + (d.day - 1)

/-- The number of whole months in so many days, and the days left over. -/
def peelMonths : List Nat → Nat → Nat × Nat
  | [], rest => (0, rest)
  | length :: lengths, rest =>
    if rest < length then (0, rest)
    else
      let (months, rest) := peelMonths lengths (rest - length)
      (months + 1, rest)

/-- The number of whole years in so many days, and the days left over. -/
def peelYears (ordinal : Nat) : Nat × Nat :=
  let (n400, rest) := (ordinal / 146097, ordinal % 146097)
  let n100 := min 3 (rest / 36524)
  let rest := rest - 36524 * n100
  let (n4, rest) := (rest / 1461, rest % 1461)
  let n1 := min 3 (rest / 365)
  (400 * n400 + 100 * n100 + 4 * n4 + n1, rest - 365 * n1)

/-- The date that many days after 0001-01-01. -/
def ofOrdinal (ordinal : Nat) : Date :=
  let (years, rest) := peelYears ordinal
  let (months, rest) := peelMonths (monthLengths (years + 1)) rest
  ⟨years + 1, months + 1, rest + 1⟩

example : ofOrdinal (days - 1) = ⟨9999, 12, 31⟩ := by decide

end Date

end SplitTest
