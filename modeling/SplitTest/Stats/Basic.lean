import SplitTest.Number.Binary64
import SplitTest.Time.Timestamp

/-
  Platform statistics: the figures that the landing page shows.
-/

namespace SplitTest

-- The powers here are those of whole numbers, whichever library stands behind `^`.
attribute [local instance (high)] instPowNat

/-- The figures, with the text of the moment they were last updated. -/
structure PlatformStats where
  id : String
  activeAuthors : Int
  booksPublished : Int
  totalRevenue : Binary64
  averageRating : Binary64
  countriesServed : Int
  lastUpdated : String
  deriving DecidableEq, Repr

namespace PlatformStats

/-- The id of the one record that is kept. -/
def current : String := "current"

/-- The text of a moment in `lastUpdated`. -/
def stamp (now : Timestamp) : String :=
  String.ofList now.renderNumeric

/-- The figures when nothing is stored: all zero. -/
def defaults (now : Timestamp) : PlatformStats :=
  ⟨current, 0, 0, .zero, .zero, 0, stamp now⟩

/-- The same figures under the current id, stamped with a moment. -/
def stamped (s : PlatformStats) (now : Timestamp) : PlatformStats :=
  { s with id := current, lastUpdated := stamp now }

/-- The best rating there is. -/
def bestRating : Binary64 := .finite false ⟨1025 * 2 ^ (52 : Nat) + 2 ^ (50 : Nat), by decide⟩

/-- The figures make sense: nothing is negative and no rating is above the best. -/
def InRange (s : PlatformStats) : Prop :=
  0 ≤ s.activeAuthors ∧ 0 ≤ s.booksPublished ∧ 0 ≤ s.countriesServed ∧
    Binary64.zero.le s.totalRevenue ∧ Binary64.zero.le s.averageRating ∧
    s.averageRating.le bestRating

instance (s : PlatformStats) : Decidable s.InRange := by
  unfold InRange; infer_instance

theorem inRange_defaults (now : Timestamp) : (defaults now).InRange := by
  exact ⟨Int.le_refl 0, Int.le_refl 0, Int.le_refl 0, rfl, rfl, rfl⟩

end PlatformStats

end SplitTest
