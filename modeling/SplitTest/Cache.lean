import SplitTest.Error
import SplitTest.Number.Notation
import SplitTest.Time.Reader

/-
  A cache for one value.
  A value is fresh for the lifetime of the cache, unless it is invalidated. Whatever was kept last
  can be had back however old it is. Lifetimes that are too long, and moments that the clock cannot
  be moved to, are errors.
-/

namespace SplitTest

-- The powers here are those of whole numbers, whichever library stands behind `^`.
attribute [local instance (high)] instPowNat

namespace Lifetime

/-- A lifetime in microseconds, if it is not too long to be held. -/
def check (micros : Int) : Except Error Int :=
  let days := micros.fdiv Calendar.ticksPerDay
  if days.natAbs ≤ Error.longestLifetime then .ok micros else .error (.lifetimeTooLong days)

/-- A lifetime of whole seconds. -/
def ofInt (seconds : Int) : Except Error Int :=
  check (seconds * Calendar.ticksPerSecond)

/-- A fraction of `2 ^ 1074` parts of a second in microseconds: the product is a double, which is
rounded to the nearest whole number, halves to even. -/
def fractionTicks (parts : Nat) : Nat :=
  match Binary64.ofRatio false (parts * Calendar.ticksPerSecond) (2 ^ Binary64.unitExponent) with
  | .finite _ rank => roundHalfEven (Binary64.unitsOf rank.val) (2 ^ Binary64.unitExponent)
  | _ => 0

/-- A lifetime of seconds given as a double. -/
def ofBinary64 : Binary64 → Except Error Int
  | .nan => .error .lifetimeNotANumber
  | .infinite _ => .error .lifetimeInfinite
  | .finite negative rank =>
    let micros : Nat := Binary64.wholePart rank * Calendar.ticksPerSecond +
      fractionTicks (Binary64.fractionUnits rank)
    check (if negative then -(micros : Int) else micros)

end Lifetime

/-- The moment so many microseconds after another one. Both the span and the moment must be ones
that can be held. -/
def later (now : Instant) (micros : Int) : Except Error Instant := do
  let span ← Lifetime.check micros
  if Calendar.contains (now + span) then .ok (now + span) else .error .momentOutOfRange

/-- A cache with a lifetime in microseconds. -/
structure TimedCache (α : Type) where
  lifetime : Int
  /-- The value kept last and when that was. -/
  kept : Option (α × Instant)
  invalidated : Bool

namespace TimedCache

variable {α : Type}

/-- A cache that has kept nothing yet. -/
def new (lifetime : Int) : TimedCache α := ⟨lifetime, none, false⟩

/-- Keeps a value. -/
def keep (c : TimedCache α) (value : α) (now : Instant) : TimedCache α :=
  { c with kept := some (value, now), invalidated := false }

/-- Makes the value that is kept stale. -/
def invalidate (c : TimedCache α) : TimedCache α :=
  { c with invalidated := true }

/-- The value, while it is fresh. -/
def fresh? (c : TimedCache α) (now : Instant) : Option α :=
  match c.kept with
  | none => none
  | some (value, since) =>
    if c.invalidated ∨ c.lifetime ≤ now - since then none else some value

/-- The value kept last. -/
def stale? (c : TimedCache α) : Option α :=
  c.kept.map Prod.fst

/-- The microseconds since the value was kept. -/
def age? (c : TimedCache α) (now : Instant) : Option Int :=
  c.kept.map fun k => now - k.2

end TimedCache

/-- An age in seconds: the double nearest so many microseconds. -/
def ageSeconds (micros : Int) : Binary64 :=
  Binary64.ofRatio (micros < 0) micros.natAbs Calendar.ticksPerSecond

/-- An age in seconds with a fixed number of places. -/
def ageText (places : Nat) (micros : Int) : String :=
  String.ofList (Binary64.fixed places (ageSeconds micros))

end SplitTest
