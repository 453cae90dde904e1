/-
  Double-precision numbers as data.
  The finite magnitudes form one increasing sequence; a magnitude is held as its place in that
  sequence, its rank. All of them are whole multiples of 2^-1074, so `units` gives the exact value
  as a natural number and comparisons need no rational arithmetic. NaN payloads are not told apart.
-/

namespace SplitTest

-- The powers here are those of whole numbers, whichever library stands behind `^`.
attribute [local instance (high)] instPowNat

/-- The place of a finite magnitude among all finite magnitudes. -/
abbrev Magnitude := Fin (2047 * 2 ^ (52 : Nat))

instance instNeZeroMagnitude : @NeZero Nat Zero.ofOfNat0 (2047 * 2 ^ (52 : Nat)) := ⟨by decide⟩

/-- A double: not a number, an infinity, or a signed finite magnitude. -/
inductive Binary64
  | nan
  | infinite (negative : Bool)
  | finite (negative : Bool) (rank : Magnitude)
  deriving DecidableEq, Repr

namespace Binary64

/-- The number of finite magnitudes, and the rank that infinity would have. -/
def ranks : Nat := 2047 * 2 ^ (52 : Nat)

/-- The exponent of the finest unit: every finite double is a multiple of 2^-1074. -/
def unitExponent : Nat := 1074

/-- The value of a rank in units of 2^-1074. -/
def unitsOf (rank : Nat) : Nat :=
  if rank < 2 ^ (52 : Nat) then rank
  else (2 ^ (52 : Nat) + rank % 2 ^ (52 : Nat)) * 2 ^ (rank / 2 ^ (52 : Nat) - 1)

/-- Positive zero. -/
def zero : Binary64 := .finite false 0

/-- The place of a number on the line of doubles; both zeros share one, NaN has none. -/
def place : Binary64 → Option Int
  | nan => none
  | infinite true => some (-(ranks : Int))
  | infinite false => some ranks
  | finite true rank => some (-(rank.val : Int))
  | finite false rank => some rank.val

/-- The order of numbers; NaN is comparable with nothing. -/
def le (x y : Binary64) : Bool :=
  match x.place, y.place with
  | some a, some b => decide (a ≤ b)
  | _, _ => false

/-- The strict order of numbers; NaN is comparable with nothing. -/
def lt (x y : Binary64) : Bool :=
  match x.place, y.place with
  | some a, some b => decide (a < b)
  | _, _ => false

def isFinite : Binary64 → Bool
  | finite _ _ => true
  | _ => false

/-- The sign bit; NaN counts as positive. -/
def isNegative : Binary64 → Bool
  | nan => false
  | infinite negative => negative
  | finite negative _ => negative

theorem not_le_nan (x : Binary64) : x.le nan = false := by
  unfold le
  split <;> simp_all [place]

end Binary64

end SplitTest
