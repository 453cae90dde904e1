import SplitTest.Time.Date

/-
  Timestamps: a moment of the local calendar, to the microsecond, with its distance from UTC.
  Two timestamps are compared by the instant they denote. The clock is an instant too: a whole
  number of microseconds since 1970-01-01T00:00:00 UTC.
-/

namespace SplitTest

/-- Microseconds since 1970-01-01T00:00:00 UTC. -/
abbrev Instant := Int

namespace Calendar

def ticksPerSecond : Nat := 1000000
def ticksPerMinute : Nat := 60 * ticksPerSecond
def ticksPerDay : Nat := 86400 * ticksPerSecond

/-- The microseconds of the whole calendar. -/
def ticks : Nat := Date.days * ticksPerDay

/-- The tick of 1970-01-01T00:00:00. -/
def epoch : Nat := 719162 * ticksPerDay

example : epoch = Date.toOrdinal ⟨1970, 1, 1⟩ * ticksPerDay := by decide

/-- Whether the calendar has an instant. -/
def contains (now : Instant) : Bool :=
  0 ≤ now + epoch && now + epoch < ticks

end Calendar

/-- A moment of the local calendar with the zone it is local to. -/
structure Timestamp where
  /-- Microseconds since 0001-01-01T00:00:00, local time. -/
  tick : Nat
  /-- Minutes that local time is ahead of UTC. -/
  offset : Int
  tick_lt : tick < Calendar.ticks
  offset_gt : -1440 < offset
  offset_lt : offset < 1440
  deriving DecidableEq

namespace Timestamp

/-- The instant a timestamp denotes. -/
def instant (t : Timestamp) : Instant :=
  (t.tick : Int) - Calendar.epoch - t.offset * Calendar.ticksPerMinute

/-- The tick of an instant in UTC; instants outside the calendar are held at its ends. -/
def tickOf (now : Instant) : Nat :=
  min (now + Calendar.epoch).toNat (Calendar.ticks - 1)

/-- An instant as a timestamp in UTC. -/
def utc (now : Instant) : Timestamp where
  tick := tickOf now
  offset := 0
  tick_lt := by
    have : 0 < Calendar.ticks := by decide
    have := Nat.min_le_right (now + Calendar.epoch).toNat (Calendar.ticks - 1)
    unfold tickOf
    omega
  offset_gt := by decide
  offset_lt := by decide

/-- The timestamp of a tick and an offset, if both are in range. -/
def ofTick (tick : Nat) (offset : Int) : Option Timestamp :=
  if h : tick < Calendar.ticks ∧ -1440 < offset ∧ offset < 1440 then
    some ⟨tick, offset, h.1, h.2.1, h.2.2⟩
  else none

/-- A number in decimal, with zeros in front up to a width. -/
def padded (width n : Nat) : List Char :=
  let digits := Nat.toDigits 10 n
  List.replicate (width - digits.length) '0' ++ digits

/-- The text of a date. -/
def renderDate (d : Date) : List Char :=
  padded 4 d.year ++ '-' :: (padded 2 d.month ++ '-' :: padded 2 d.day)

/-- The text of a time of day; the fraction is left out when it is zero. -/
def renderTime (tickOfDay : Nat) : List Char :=
  let seconds := tickOfDay / Calendar.ticksPerSecond
  let fraction := tickOfDay % Calendar.ticksPerSecond
  padded 2 (seconds / 3600) ++ ':' :: (padded 2 (seconds / 60 % 60) ++ ':' ::
    (padded 2 (seconds % 60) ++ if fraction = 0 then [] else '.' :: padded 6 fraction))

/-- The text of a zone other than UTC. -/
def renderOffset (offset : Int) : List Char :=
  (if offset < 0 then '-' else '+') ::
    (padded 2 (offset.natAbs / 60) ++ ':' :: padded 2 (offset.natAbs % 60))

/-- The date and time of a timestamp, without its zone. -/
def renderLocal (t : Timestamp) : List Char :=
  renderDate (Date.ofOrdinal (t.tick / Calendar.ticksPerDay)) ++
    'T' :: renderTime (t.tick % Calendar.ticksPerDay)

/-- The text of a timestamp in a document: UTC is marked `Z`. -/
def render (t : Timestamp) : List Char :=
  t.renderLocal ++ if t.offset = 0 then ['Z'] else renderOffset t.offset

/-- The text of a timestamp with the zone always written as a distance from UTC. -/
def renderNumeric (t : Timestamp) : List Char :=
  t.renderLocal ++ renderOffset t.offset

end Timestamp

end SplitTest
