import SplitTest.Number.Numeral
import SplitTest.Time.Timestamp

/-
  Reading timestamps.
  A text is a date, with or without a time of day and a zone, or the decimal of a number. A number
  counts seconds since 1970, or milliseconds when it is above 2 * 10^10 in absolute value; a double
  is taken apart into the whole number below it and a fraction. What names no zone is UTC.
-/

namespace SplitTest.Timestamp

-- The powers here are those of whole numbers, whichever library stands behind `^`.
attribute [local instance (high)] instPowNat

/-- Why a value is no timestamp. -/
inductive ReadFault
  /-- The text has none of the accepted forms. -/
  | malformed
  /-- The moment lies outside the calendar. -/
  | outOfRange
  deriving DecidableEq, Repr

/-- Numbers above this absolute value count milliseconds. -/
def millisecondsAbove : Nat := 20000000000

/-- The timestamp so many microseconds from 1970, in UTC. -/
def ofMicroseconds (n : Int) : Except ReadFault Timestamp :=
  let tick := n + Calendar.epoch
  if tick < 0 then .error .outOfRange
  else
    match ofTick tick.toNat 0 with
    | some t => .ok t
    | none => .error .outOfRange

/-- The microseconds from 1970 that a whole number stands for. -/
def microsecondsOfInt (n : Int) : Int :=
  if millisecondsAbove < n.natAbs then n * 1000 else n * 1000000

/-- The timestamp that a whole number stands for. -/
def ofInt (n : Int) : Except ReadFault Timestamp :=
  ofMicroseconds (microsecondsOfInt n)

/-- The double nearest a fraction of `2 ^ 1074` parts, in such parts. -/
def nearestParts (parts : Nat) : Nat :=
  match Binary64.ofRatio false parts (2 ^ Binary64.unitExponent) with
  | .finite _ rank => Binary64.unitsOf rank.val
  | _ => 0

/-- The whole number below a double, and the double nearest to what is left above it, in parts. -/
def floorParts (negative : Bool) (rank : Magnitude) : Int × Nat :=
  let whole := Binary64.wholePart rank
  let parts := Binary64.fractionUnits rank
  if negative = true ∧ parts ≠ 0 then
    (-(whole : Int) - 1, nearestParts (2 ^ Binary64.unitExponent - parts))
  else (if negative then -(whole : Int) else whole, parts)

/-- A fraction times a factor: the product is a double, which is rounded to the nearest whole
number, halves upward. -/
def scaleParts (parts factor : Nat) : Nat :=
  roundHalfUp (nearestParts (parts * factor)) (2 ^ Binary64.unitExponent)

/-- Whether a magnitude is above the greatest one that counts seconds. -/
def countsMilliseconds (rank : Magnitude) : Bool :=
  millisecondsAbove * 2 ^ Binary64.unitExponent < Binary64.unitsOf rank.val

/-- The microseconds from 1970 that a double stands for, if it is finite. -/
def microsecondsOfBinary64 : Binary64 → Option Int
  | .finite negative rank =>
    let (whole, parts) := floorParts negative rank
    let factor := if countsMilliseconds rank then 1000 else 1000000
    some (whole * factor + scaleParts parts factor)
  | _ => none

/-- The timestamp that a double stands for. -/
def ofBinary64 (x : Binary64) : Except ReadFault Timestamp :=
  match microsecondsOfBinary64 x with
  | some n => ofMicroseconds n
  | none => .error .outOfRange

/-- Takes a number of exactly `n` digits from the front of a text. -/
def takeNumber (n : Nat) (cs : List Char) : Option (Nat × List Char) :=
  let digits := cs.take n
  if digits.length = n ∧ digits.all Char.isDigit then some (digitsValue digits, cs.drop n) else none

/-- Takes a given character from the front of a text. -/
def takeChar (p : Char → Bool) : List Char → Option (List Char)
  | c :: rest => if p c then some rest else none
  | [] => none

/-- Takes a date from the front of a text. The year 0 passes here. -/
def takeDate (cs : List Char) : Option (Date × List Char) := do
  let (year, cs) ← takeNumber 4 cs
  let cs ← takeChar (· == '-') cs
  let (month, cs) ← takeNumber 2 cs
  let cs ← takeChar (· == '-') cs
  let (day, cs) ← takeNumber 2 cs
  let date : Date := ⟨year, month, day⟩
  if date.exists? then some (date, cs) else none

/-- Reads digits as a fraction of a second, in microseconds; the rest is cut off. -/
def fractionTicks (digits : List Char) : Option Nat :=
  if digits = [] then none
  else some (digitsValue (digits.take 6) * 10 ^ (6 - digits.length))

/-- Takes the seconds, if any, from the front of a text; the result is in microseconds. -/
def takeSeconds (cs : List Char) : Option (Nat × List Char) :=
  match cs with
  | ':' :: cs => do
    let (seconds, cs) ← takeNumber 2 cs
    if 59 < seconds then none
    else
      match cs with
      | c :: cs' =>
        if c = '.' ∨ c = ',' then
          let (digits, rest) := splitDigits cs'
          (fractionTicks digits).map fun f => (seconds * Calendar.ticksPerSecond + f, rest)
        else some (seconds * Calendar.ticksPerSecond, cs)
      | [] => some (seconds * Calendar.ticksPerSecond, [])
  | cs => some (0, cs)

/-- Takes a time of day from the front of a text; the result is in microseconds. -/
def takeTime (cs : List Char) : Option (Nat × List Char) := do
  let (hours, cs) ← takeNumber 2 cs
  let cs ← takeChar (· == ':') cs
  let (minutes, cs) ← takeNumber 2 cs
  let (ticks, cs) ← takeSeconds cs
  if hours ≤ 23 ∧ minutes ≤ 59 then
    some ((hours * 60 + minutes) * Calendar.ticksPerMinute + ticks, cs)
  else none

/-- Reads the hours and minutes of a zone, with or without a colon between them. -/
def readZoneMinutes (cs : List Char) : Option Nat := do
  let (hours, cs) ← takeNumber 2 cs
  let cs := (takeChar (· == ':') cs).getD cs
  let (minutes, cs) ← takeNumber 2 cs
  if cs = [] ∧ hours ≤ 23 ∧ minutes ≤ 59 then some (hours * 60 + minutes) else none

/-- Reads a zone: nothing, `Z`, or a signed distance from UTC. -/
def readZone : List Char → Option Int
  | [] => some 0
  | c :: rest =>
    if c = 'Z' ∨ c = 'z' then (if rest = [] then some 0 else none)
    else if c = '+' then (readZoneMinutes rest).map Int.ofNat
    else if c = '-' ∨ c = '\u2212' then (readZoneMinutes rest).map fun m => -(m : Int)
    else none

/-- The characters that may stand between date and time. -/
def separatesTime (c : Char) : Bool :=
  c == 'T' || c == 't' || c == ' ' || c == '_'

/-- Reads a date with an optional time of day: the date, its microseconds and the zone. -/
def readCivil (cs : List Char) : Option (Date × Nat × Int) := do
  let (date, cs) ← takeDate cs
  if cs = [] then some (date, 0, 0)
  else
    let cs ← takeChar separatesTime cs
    let (ticks, cs) ← takeTime cs
    let offset ← readZone cs
    some (date, ticks, offset)

/-- Reads the decimal of a number. It has digits on at least one side of the point, and an exponent
only if it has a point. -/
def readNumber (cs : List Char) : Option Numeral :=
  match Numeral.read cs with
  | some n =>
    if n.digits ≠ [] ∧ (n.exponent.isSome → n.fraction.isSome) then some n else none
  | none => none

/-- The start of the year 0, in microseconds from 1970. -/
def yearZero : Int :=
  -(Calendar.epoch + 366 * Calendar.ticksPerDay : Nat)

/-- The timestamp that the decimal of a number stands for. -/
def ofNumeral (n : Numeral) : Except ReadFault Timestamp :=
  match if n.isWhole then some (microsecondsOfInt n.toInt)
    else microsecondsOfBinary64 n.toBinary64 with
  | none => .error .malformed
  | some m =>
    match ofMicroseconds m with
    | .ok t => .ok t
    | .error _ => .error (if m < 0 ∧ yearZero ≤ m then .outOfRange else .malformed)

/-- Reads a timestamp from text. Moments of the year 0 are well formed but not in the calendar;
a number that lies still further out has none of the accepted forms. -/
def read (cs : List Char) : Except ReadFault Timestamp :=
  match readCivil cs with
  | some (date, ticks, offset) =>
    if date.year = 0 then .error .outOfRange
    else
      match ofTick (date.toOrdinal * Calendar.ticksPerDay + ticks) offset with
      | some t => .ok t
      | none => .error .outOfRange
  | none =>
    match readNumber cs with
    | some n => ofNumeral n
    | none => .error .malformed

-- A distance from UTC names its minutes.
example : read "2024-01-01T00:00:00-05".toList = .error .malformed := by rfl

end SplitTest.Timestamp
