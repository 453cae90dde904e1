import Mathlib
import SplitTest.Proofs.Json.RoundTrip
import SplitTest.Proofs.Json.Sizes
import SplitTest.Proofs.Schema.Reading
import SplitTest.Stats.Codec

/-
  Statistics and their documents.
  Statistics that were read from a document are `Sized`: none of their whole numbers is too long to
  be read again. The document of such statistics is read as the statistics themselves if both
  doubles are finite and the figures are in range, and not at all otherwise
  (`ofText_render_eq_value`), whatever the clock shows. The figures that a document is read as are in
  range (`Accepted.inRange`), so of them only an infinite revenue has no text.
-/

namespace SplitTest

/-! ## Numbers that were read -/

namespace Spelling

theorem lt_of_readDigits {cs : List Char} {n : Nat} (h : readDigits cs = .ok n) :
    n < 10 ^ Numeral.longest := by
  unfold readDigits at h
  dsimp only at h
  split_ifs at h with hzero halone hlong hrest
  · cases h
    exact Nat.pow_pos (by decide)
  · cases h
    have hdigits : AllDigits (splitDigits cs).1 := allDigits_splitDigits cs
    exact (digitsValue_lt hdigits).trans_le
      (Nat.pow_le_pow_right (by decide) (Nat.le_of_not_lt hlong))

theorem natAbs_lt_of_readSigned {cs : List Char} {n : Int} (h : readSigned cs = .ok n) :
    n.natAbs < 10 ^ Numeral.longest := by
  unfold readSigned at h
  split at h
  · next rest =>
    cases hdigits : readDigits rest with
    | error fault =>
      rw [hdigits] at h
      cases h
    | ok k =>
      rw [hdigits] at h
      cases h
      rw [Int.natAbs_neg, Int.natAbs_natCast]
      exact lt_of_readDigits hdigits
  · cases hdigits : readDigits cs with
    | error fault =>
      rw [hdigits] at h
      cases h
    | ok k =>
      rw [hdigits] at h
      cases h
      exact lt_of_readDigits hdigits

theorem natAbs_lt_of_whole {s : String} {n : Int} (h : whole s = .ok n) :
    n.natAbs < 10 ^ Numeral.longest := by
  unfold whole at h
  split at h
  · split at h
    · next k hbare =>
      cases h
      obtain ⟨cs, -, hread⟩ := Option.map_eq_some_iff.1 hbare
      exact natAbs_lt_of_readSigned hread
    · cases h
  · exact natAbs_lt_of_readSigned h

end Spelling

namespace Reading

/-- A whole number that was read is not too long, if the number it was read from is not. -/
theorem natAbs_lt_of_int {j : Json} (hj : j.Sized) {n : Int} (h : int j = .value n) :
    n.natAbs < 10 ^ Numeral.longest := by
  have hlong : 2 ^ 63 < 10 ^ Numeral.longest :=
    lt_of_lt_of_le (b := 10 ^ 19) (by decide) (Nat.pow_le_pow_right (by decide) (by decide))
  unfold int at h
  split at h
  · cases h
    cases hj with
    | scalar hs => exact hs
  · cases h
    split_ifs <;> omega
  · next x =>
    unfold intOfBinary64 at h
    split_ifs at h with hfinite
    · cases hx : x.toInt? with
      | none =>
        rw [hx] at h
        cases h
      | some k =>
        rw [hx] at h
        dsimp only at h
        split_ifs at h with hfits
        · cases h
          omega
        · cases h
    · cases h
  · next s =>
    cases hwhole : Spelling.whole s with
    | error fault =>
      rw [hwhole] at h
      cases fault <;> cases h
    | ok k =>
      rw [hwhole] at h
      cases h
      exact Spelling.natAbs_lt_of_whole hwhole
  · cases h

theorem intFrom_eq_value {least n : Int} {j : Json} :
    intFrom least j = .value n ↔ int j = .value n ∧ least ≤ n := by
  rw [intFrom, andThen_eq_value]
  constructor
  · rintro ⟨k, hk, hle⟩
    split_ifs at hle with hless
    · cases hle
    · cases hle
      exact ⟨hk, Int.not_lt.1 hless⟩
  · rintro ⟨hn, hle⟩
    exact ⟨n, hn, if_neg (Int.not_lt.2 hle)⟩

theorem nonNegative_eq_value {x : Binary64} {j : Json} :
    nonNegative j = .value x ↔ binary64 j = .value x ∧ Binary64.zero.le x = true := by
  rw [nonNegative, andThen_eq_value]
  constructor
  · rintro ⟨y, hy, hle⟩
    split_ifs at hle with hzero
    · cases hle
      exact ⟨hy, hzero⟩
    · cases hle
  · rintro ⟨hx, hzero⟩
    exact ⟨x, hx, if_pos hzero⟩

theorem upTo_eq_value {greatest x : Binary64} {j : Json} :
    upTo greatest j = .value x ↔
      binary64 j = .value x ∧ Binary64.zero.le x = true ∧ x.le greatest = true := by
  rw [upTo, andThen_eq_value]
  constructor
  · rintro ⟨y, hy, hle⟩
    split_ifs at hle with hgreatest hzero
    · cases hle
      exact ⟨hy, hzero, hgreatest⟩
    · cases hle
    · cases hle
  · rintro ⟨hx, hzero, hgreatest⟩
    refine ⟨x, hx, ?_⟩
    rw [if_pos hgreatest, if_pos hzero]

/-- A double that was written is read again, unless there is no text for it. -/
theorem binary64_written_eq_value {x y : Binary64} :
    binary64 (.scalar (Scalar.float x).written) = .value y ↔ x.isFinite = true ∧ y = x := by
  cases x with
  | nan => simp [binary64, Scalar.written, Binary64.isFinite, fail]
  | infinite negative => simp [binary64, Scalar.written, Binary64.isFinite, fail]
  | finite negative rank => simp [binary64, Scalar.written, Binary64.isFinite, eq_comm]

end Reading

namespace PlatformStats

/-! ## What documents can hold -/

/-- No whole number in the figures is too long to be read again. -/
structure Sized (s : PlatformStats) : Prop where
  activeAuthors : s.activeAuthors.natAbs < 10 ^ Numeral.longest
  booksPublished : s.booksPublished.natAbs < 10 ^ Numeral.longest
  countriesServed : s.countriesServed.natAbs < 10 ^ Numeral.longest

/-- Statistics that some document was read as, at some time. -/
def Accepted (s : PlatformStats) : Prop := ∃ now text, ofText now text = .value s

theorem Sized.stamped {s : PlatformStats} (h : s.Sized) (now : Timestamp) : (s.stamped now).Sized :=
  ⟨h.activeAuthors, h.booksPublished, h.countriesServed⟩

/-! ## The text of a document -/

/-- The document of statistics with their doubles written in some way. -/
def document (s : PlatformStats) (revenue rating : Json) : Json :=
  .object [("id", .ofText s.id), ("activeAuthors", .ofInt s.activeAuthors),
    ("booksPublished", .ofInt s.booksPublished), ("totalRevenue", revenue), ("averageRating", rating),
    ("countriesServed", .ofInt s.countriesServed), ("lastUpdated", .ofText s.lastUpdated)]

theorem printable_document {s : PlatformStats} (h : s.Sized) {revenue rating : Json}
    (hrevenue : Json.Printable 0 revenue) (hrating : Json.Printable 0 rating) :
    Json.Printable 1 (s.document revenue rating) := by
  refine .object ?_
  simp only [List.forall_mem_cons]
  exact ⟨.scalar 0 trivial, .scalar 0 h.activeAuthors, .scalar 0 h.booksPublished, hrevenue, hrating,
    .scalar 0 h.countriesServed, .scalar 0 trivial, fun f hf => absurd hf List.not_mem_nil⟩

/-- The text of a document is JSON. -/
theorem parse_document {s : PlatformStats} (h : s.Sized) {revenue rating : Json}
    (hrevenue : Json.Printable 0 revenue) (hrating : Json.Printable 0 rating) :
    Json.parse (s.document revenue rating).compact.toList =
      some (s.document revenue.written rating.written) := by
  rw [Json.compact, String.toList_ofList]
  exact Json.parse_render (printable_document h hrevenue hrating) (by decide)

/-- The document that is written for statistics. -/
theorem render_eq (s : PlatformStats) : s.render =
    (s.document (.ofBinary64 s.totalRevenue) (.ofBinary64 s.averageRating)).compact := rfl

theorem render_ne_empty (s : PlatformStats) : s.render ≠ "" :=
  Json.compact_object_ne_empty _

/-! ## Reading a document again -/

/-- A document is read with the doubles that its own two are read as. -/
theorem read_document_eq_value {now : Timestamp} {s d : PlatformStats} {revenue rating : Json} :
    read now (s.document revenue rating) = .value d ↔
      (0 ≤ s.activeAuthors ∧ 0 ≤ s.booksPublished ∧ 0 ≤ s.countriesServed) ∧
        ∃ x y, Reading.nonNegative revenue = .value x ∧
          Reading.upTo bestRating rating = .value y ∧
          d = { s with totalRevenue := x, averageRating := y } := by
  obtain ⟨fields, hfields⟩ : ∃ fields : Table Json, fields =
      [("id", .ofText s.id), ("activeAuthors", .ofInt s.activeAuthors),
       ("booksPublished", .ofInt s.booksPublished), ("totalRevenue", revenue),
       ("averageRating", rating), ("countriesServed", .ofInt s.countriesServed),
       ("lastUpdated", .ofText s.lastUpdated)] :=
    ⟨_, rfl⟩
  have hread : read now (s.document revenue rating) = readFields now fields := by
    rw [hfields]
    rfl
  have hid : fields.last? "id" = some (.ofText s.id) := by rw [hfields]; rfl
  have hauthors : fields.last? "activeAuthors" = some (.ofInt s.activeAuthors) := by
    rw [hfields]
    rfl
  have hbooks : fields.last? "booksPublished" = some (.ofInt s.booksPublished) := by
    rw [hfields]
    rfl
  have hrevenue : fields.last? "totalRevenue" = some revenue := by rw [hfields]; rfl
  have hrating : fields.last? "averageRating" = some rating := by rw [hfields]; rfl
  have hcountries : fields.last? "countriesServed" = some (.ofInt s.countriesServed) := by
    rw [hfields]
    rfl
  have hupdated : fields.last? "lastUpdated" = some (.ofText s.lastUpdated) := by
    rw [hfields]
    rfl
  have hint : ∀ n k : Int, Reading.int (.ofInt n) = .value k ↔ k = n := by
    intro n k
    simp [Reading.int, Json.ofInt, eq_comm]
  have htext : ∀ t u : String, Reading.text (.ofText t) = .value u ↔ u = t := by
    intro t u
    simp [Reading.text, Json.ofText, eq_comm]
  rw [hread, readFields]
  simp only [Reading.seq_eq_value, Reading.functorMap_eq_value,
    Reading.optional_eq_value_of_last? (.only "id") hid,
    Reading.optional_eq_value_of_last? ⟨"activeAuthors", "active_authors"⟩ hauthors,
    Reading.optional_eq_value_of_last? ⟨"booksPublished", "books_published"⟩ hbooks,
    Reading.optional_eq_value_of_last? ⟨"totalRevenue", "total_revenue"⟩ hrevenue,
    Reading.optional_eq_value_of_last? ⟨"averageRating", "average_rating"⟩ hrating,
    Reading.optional_eq_value_of_last? ⟨"countriesServed", "countries_served"⟩ hcountries,
    Reading.optional_eq_value_of_last? ⟨"lastUpdated", "last_updated"⟩ hupdated,
    Reading.intFrom_eq_value, hint, htext]
  constructor
  · intro hparts
    obtain ⟨_, _, ⟨_, _, ⟨_, _, ⟨_, _, ⟨_, _, ⟨_, _, ⟨_, rfl, rfl⟩, ⟨rfl, hauthors⟩, rfl⟩,
      ⟨rfl, hbooks⟩, rfl⟩, hrevenue, rfl⟩, hrating, rfl⟩, ⟨rfl, hcountries⟩, rfl⟩, rfl, rfl⟩ := hparts
    exact ⟨⟨hauthors, hbooks, hcountries⟩, _, _, hrevenue, hrating, rfl⟩
  · intro hparts
    obtain ⟨⟨hauthors, hbooks, hcountries⟩, x, y, hrevenue, hrating, rfl⟩ := hparts
    exact ⟨_, _, ⟨_, _, ⟨_, _, ⟨_, _, ⟨_, _, ⟨_, _, ⟨_, rfl, rfl⟩, ⟨rfl, hauthors⟩, rfl⟩,
      ⟨rfl, hbooks⟩, rfl⟩, hrevenue, rfl⟩, hrating, rfl⟩, ⟨rfl, hcountries⟩, rfl⟩, rfl, rfl⟩

theorem ofText_document_eq_value {now : Timestamp} {s d : PlatformStats} (h : s.Sized)
    {revenue rating : Json} (hrevenue : Json.Printable 0 revenue) (hrating : Json.Printable 0 rating) :
    ofText now (s.document revenue rating).compact = .value d ↔
      (0 ≤ s.activeAuthors ∧ 0 ≤ s.booksPublished ∧ 0 ≤ s.countriesServed) ∧
        ∃ x y, Reading.nonNegative revenue.written = .value x ∧
          Reading.upTo bestRating rating.written = .value y ∧
          d = { s with totalRevenue := x, averageRating := y } := by
  rw [ofText, Reading.ofText, parse_document h hrevenue hrating]
  exact read_document_eq_value

/-- The document of statistics is read as the statistics, unless there is no text for one of their
    doubles or they are out of range: then it is not read at all. -/
theorem ofText_render_eq_value {now : Timestamp} {s d : PlatformStats} (h : s.Sized) :
    ofText now s.render = .value d ↔
      (s.totalRevenue.isFinite = true ∧ s.averageRating.isFinite = true ∧ s.InRange) ∧ d = s := by
  have hprintable (x : Binary64) : Json.Printable 0 (.ofBinary64 x) := .scalar 0 trivial
  have hwritten (x : Binary64) : (Json.ofBinary64 x).written = .scalar (Scalar.float x).written := rfl
  rw [render_eq, ofText_document_eq_value h (hprintable _) (hprintable _)]
  simp only [hwritten, Reading.nonNegative_eq_value, Reading.upTo_eq_value,
    Reading.binary64_written_eq_value]
  constructor
  · rintro ⟨⟨hauthors, hbooks, hcountries⟩, _, _, ⟨⟨hfinite, rfl⟩, hrevenue⟩,
      ⟨⟨hfinite', rfl⟩, hrating, hbest⟩, rfl⟩
    exact ⟨⟨hfinite, hfinite', hauthors, hbooks, hcountries, hrevenue, hrating, hbest⟩, rfl⟩
  · rintro ⟨⟨hfinite, hfinite', hauthors, hbooks, hcountries, hrevenue, hrating, hbest⟩, rfl⟩
    exact ⟨⟨hauthors, hbooks, hcountries⟩, _, _, ⟨⟨hfinite, rfl⟩, hrevenue⟩,
      ⟨⟨hfinite', rfl⟩, hrating, hbest⟩, rfl⟩

/-! ## Accepted statistics are sized -/

/-- A whole number in a field, or the zero in its place, is not too long. -/
theorem natAbs_lt_of_field {name : Reading.Name} {fields : Table Json} (hfields : (Json.object fields).Sized)
    {n : Int} (h : Reading.optional name 0 (Reading.intFrom 0) fields = .value n) :
    n.natAbs < 10 ^ Numeral.longest := by
  rcases Reading.exists_of_optional_eq_value h with rfl | ⟨f, hf, hread⟩
  · exact Nat.pow_pos (by decide)
  · cases hfields with
    | object hsized =>
      exact Reading.natAbs_lt_of_int (hsized f hf) (Reading.intFrom_eq_value.1 hread).1

theorem sized_of_read {now : Timestamp} {j : Json} (hj : j.Sized) {s : PlatformStats}
    (h : read now j = .value s) : s.Sized := by
  cases j with
  | scalar _ => cases h
  | array _ => cases h
  | object fields =>
    simp only [read, Reading.record, readFields, Reading.seq_eq_value,
      Reading.functorMap_eq_value] at h
    obtain ⟨_, _, ⟨_, _, ⟨_, _, ⟨_, _, ⟨_, _, ⟨_, _, ⟨_, -, rfl⟩, hauthors, rfl⟩, hbooks, rfl⟩,
      -, rfl⟩, -, rfl⟩, hcountries, rfl⟩, -, rfl⟩ := h
    exact ⟨natAbs_lt_of_field hj hauthors, natAbs_lt_of_field hj hbooks,
      natAbs_lt_of_field hj hcountries⟩

/-- What was read from a document can be read again, as far as the length of numbers goes. -/
theorem Accepted.sized {s : PlatformStats} (h : s.Accepted) : s.Sized := by
  obtain ⟨now, text, hread⟩ := h
  unfold ofText Reading.ofText at hread
  split at hread
  · next j hparse => exact sized_of_read (Json.sized_of_parse hparse) hread
  · cases hread

/-! ## Accepted statistics are in range -/

/-- A whole number in a field, or the zero in its place, is not negative. -/
theorem nonneg_of_field {name : Reading.Name} {fields : Table Json} {n : Int}
    (h : Reading.optional name 0 (Reading.intFrom 0) fields = .value n) : 0 ≤ n := by
  rcases Reading.exists_of_optional_eq_value h with rfl | ⟨f, -, hread⟩
  · exact le_refl 0
  · exact (Reading.intFrom_eq_value.1 hread).2

theorem inRange_of_read {now : Timestamp} {j : Json} {s : PlatformStats}
    (h : read now j = .value s) : s.InRange := by
  cases j with
  | scalar _ => cases h
  | array _ => cases h
  | object fields =>
    simp only [read, Reading.record, readFields, Reading.seq_eq_value,
      Reading.functorMap_eq_value] at h
    obtain ⟨_, _, ⟨_, _, ⟨_, _, ⟨_, _, ⟨_, _, ⟨_, _, ⟨_, -, rfl⟩, hauthors, rfl⟩, hbooks, rfl⟩,
      hrevenue, rfl⟩, hrating, rfl⟩, hcountries, rfl⟩, -, rfl⟩ := h
    have hzero : Binary64.zero.le .zero = true := rfl
    refine ⟨nonneg_of_field hauthors, nonneg_of_field hbooks, nonneg_of_field hcountries, ?_⟩
    refine ⟨?_, ?_, ?_⟩
    · rcases Reading.exists_of_optional_eq_value hrevenue with rfl | ⟨f, -, hread⟩
      · exact hzero
      · exact (Reading.nonNegative_eq_value.1 hread).2
    · rcases Reading.exists_of_optional_eq_value hrating with rfl | ⟨f, -, hread⟩
      · exact hzero
      · exact (Reading.upTo_eq_value.1 hread).2.1
    · rcases Reading.exists_of_optional_eq_value hrating with rfl | ⟨f, -, hread⟩
      · rfl
      · exact (Reading.upTo_eq_value.1 hread).2.2

theorem Accepted.inRange {s : PlatformStats} (h : s.Accepted) : s.InRange := by
  obtain ⟨now, text, hread⟩ := h
  unfold ofText Reading.ofText at hread
  split at hread
  · exact inRange_of_read hread
  · cases hread

/-- A rating from zero to the best one is finite. -/
theorem isFinite_of_inRange {s : PlatformStats} (h : s.InRange) :
    s.averageRating.isFinite = true := by
  obtain ⟨-, -, -, -, hzero, hbest⟩ := h
  cases hrating : s.averageRating with
  | finite negative rank => rfl
  | nan =>
    rw [hrating, Binary64.not_le_nan] at hzero
    cases hzero
  | infinite negative =>
    cases negative with
    | true =>
      rw [hrating] at hzero
      cases hzero
    | false =>
      rw [hrating] at hbest
      cases hbest

end PlatformStats

end SplitTest
