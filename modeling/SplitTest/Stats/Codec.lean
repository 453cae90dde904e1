import SplitTest.Schema.Document
import SplitTest.Stats.Basic

/-
  Platform statistics as documents.
-/

namespace SplitTest.PlatformStats

def readFields (now : Timestamp) (fields : Table Json) : Reading PlatformStats :=
  PlatformStats.mk <$> Reading.optional (.only "id") current Reading.text fields
    <*> Reading.optional ⟨"activeAuthors", "active_authors"⟩ 0 (Reading.intFrom 0) fields
    <*> Reading.optional ⟨"booksPublished", "books_published"⟩ 0 (Reading.intFrom 0) fields
    <*> Reading.optional ⟨"totalRevenue", "total_revenue"⟩ .zero Reading.nonNegative fields
    <*> Reading.optional ⟨"averageRating", "average_rating"⟩ .zero (Reading.upTo bestRating) fields
    <*> Reading.optional ⟨"countriesServed", "countries_served"⟩ 0 (Reading.intFrom 0) fields
    <*> Reading.optional ⟨"lastUpdated", "last_updated"⟩ (stamp now) Reading.text fields

/-- Reads statistics; `now` stands in for a missing moment of update. -/
def read (now : Timestamp) : Json → Reading PlatformStats :=
  Reading.record (readFields now)

/-- The fields without the id, as they are published. -/
def publicFields (s : PlatformStats) : Table Json :=
  [("activeAuthors", .ofInt s.activeAuthors), ("booksPublished", .ofInt s.booksPublished),
   ("totalRevenue", .ofBinary64 s.totalRevenue), ("averageRating", .ofBinary64 s.averageRating),
   ("countriesServed", .ofInt s.countriesServed), ("lastUpdated", .ofText s.lastUpdated)]

def toJson (s : PlatformStats) : Json :=
  .object (("id", .ofText s.id) :: s.publicFields)

/-- The document of the statistics. -/
def render (s : PlatformStats) : String := s.toJson.compact

/-- The statistics as they are published. -/
def renderPublic (s : PlatformStats) : String := (Json.object s.publicFields).compact

/-- Reads the document of statistics. -/
def ofText (now : Timestamp) (s : String) : Reading PlatformStats :=
  Reading.ofText (read now) s

end SplitTest.PlatformStats
