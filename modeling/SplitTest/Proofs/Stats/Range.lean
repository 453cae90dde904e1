import Mathlib
import SplitTest.Proofs.Number.Values
import SplitTest.Proofs.Stats.Codec

/-
  The figures that documents can hold.
  To be in range is a statement about numbers (`inRange_iff`): each double has a value, so none of
  them is NaN, and the value is within the bounds. Statistics that a document is read as are in
  range, whatever text stands for a figure. Conversely every figure within the bounds is read from
  some document: the document that is written for the statistics, and for an infinite revenue, which
  has no number in JSON, the same document with the word for it.
-/

namespace SplitTest.PlatformStats

variable {s : PlatformStats}

/-- The rank of the best rating holds five. -/
theorem unitsOf_bestRating :
    Binary64.unitsOf (1025 * 2 ^ 52 + 2 ^ 50) = 5 * 2 ^ Binary64.unitExponent := by
  have hexponent : Binary64.unitExponent = 50 + 1024 := rfl
  calc Binary64.unitsOf ((1024 + 1) * 2 ^ 52 + 2 ^ 50)
    _ = (2 ^ 52 + 2 ^ 50) * 2 ^ 1024 := Binary64.unitsOf_eq (by decide)
    _ = 5 * 2 ^ 50 * 2 ^ 1024 := congrArg (· * 2 ^ 1024) (by decide)
    _ = 5 * 2 ^ Binary64.unitExponent := by rw [hexponent, Nat.pow_add, Nat.mul_assoc]

theorem value?_bestRating : bestRating.value? = some 5 := by
  have hvalue : ((5 * 2 ^ Binary64.unitExponent : Nat) : ℝ) / 2 ^ Binary64.unitExponent = 5 := by
    rw [Nat.cast_mul, Nat.cast_pow]
    exact mul_div_cancel_right₀ _ (by positivity)
  have hfive : bestRating.value? =
      some (((Binary64.unitsOf (1025 * 2 ^ 52 + 2 ^ 50) : ℝ) / 2 ^ Binary64.unitExponent : ℝ) : EReal) :=
    rfl
  rw [hfive, unitsOf_bestRating, hvalue]
  rfl

/-- To be in range is to have values within the bounds. -/
theorem inRange_iff : s.InRange ↔
    0 ≤ s.activeAuthors ∧ 0 ≤ s.booksPublished ∧ 0 ≤ s.countriesServed ∧
      (∃ v, s.totalRevenue.value? = some v ∧ 0 ≤ v) ∧
      ∃ v, s.averageRating.value? = some v ∧ 0 ≤ v ∧ v ≤ 5 := by
  have hzero (x : Binary64) : Binary64.zero.le x = true ↔ ∃ v, x.value? = some v ∧ 0 ≤ v := by
    simp [Binary64.le_eq_true_iff, Binary64.value?_zero]
  have hbest (x : Binary64) : x.le bestRating = true ↔ ∃ v, x.value? = some v ∧ v ≤ 5 := by
    simp [Binary64.le_eq_true_iff, value?_bestRating]
  have hboth (x : Binary64) : (Binary64.zero.le x = true ∧ x.le bestRating = true) ↔
      ∃ v, x.value? = some v ∧ 0 ≤ v ∧ v ≤ 5 := by
    rw [hzero, hbest]
    constructor
    · rintro ⟨⟨v, hv, hpos⟩, w, hw, hle⟩
      rw [hv, Option.some.injEq] at hw
      subst hw
      exact ⟨v, hv, hpos, hle⟩
    · rintro ⟨v, hv, hpos, hle⟩
      exact ⟨⟨v, hv, hpos⟩, v, hv, hle⟩
  rw [InRange, hzero, hboth]

/-- A revenue in range that is not finite is the greatest one. -/
theorem totalRevenue_eq_of_inRange (h : s.InRange) (hfinite : s.totalRevenue.isFinite = false) :
    s.totalRevenue = .infinite false := by
  obtain ⟨-, -, -, hzero, -⟩ := h
  match hrevenue : s.totalRevenue with
  | .infinite false => rfl
  | .infinite true =>
    rw [hrevenue] at hzero
    cases hzero
  | .nan =>
    rw [hrevenue, Binary64.not_le_nan] at hzero
    cases hzero
  | .finite negative rank =>
    rw [hrevenue] at hfinite
    cases hfinite

/-- Figures in range are read from some document. -/
theorem exists_ofText_eq_value (hsized : s.Sized) (h : s.InRange) (now : Timestamp) :
    ∃ text, ofText now text = .value s := by
  have hrating : s.averageRating.isFinite = true := isFinite_of_inRange h
  cases hrevenue : s.totalRevenue.isFinite with
  | true => exact ⟨s.render, (ofText_render_eq_value hsized).2 ⟨⟨hrevenue, hrating, h⟩, rfl⟩⟩
  | false =>
    have hinf : s.totalRevenue = .infinite false := totalRevenue_eq_of_inRange h hrevenue
    obtain ⟨hauthors, hbooks, hcountries, -, hzero, hbest⟩ := h
    have hword : Json.Printable 0 (.ofText "inf") := .scalar 0 trivial
    have hdouble : Json.Printable 0 (.ofBinary64 s.averageRating) := .scalar 0 trivial
    refine ⟨(s.document (.ofText "inf") (.ofBinary64 s.averageRating)).compact,
      (ofText_document_eq_value hsized hword hdouble).2
        ⟨⟨hauthors, hbooks, hcountries⟩, .infinite false, s.averageRating, rfl, ?_, ?_⟩⟩
    · exact Reading.upTo_eq_value.2
        ⟨Reading.binary64_written_eq_value.2 ⟨hrating, rfl⟩, hzero, hbest⟩
    · rw [← hinf]

/-- The statistics that documents are read as, at any time: those whose whole numbers are not
    negative and not too long, whose revenue has a value that is not negative, and whose rating has
    a value from zero to five. -/
theorem exists_ofText_eq_value_iff (now : Timestamp) (s : PlatformStats) :
    (∃ text, ofText now text = .value s) ↔ s.Sized ∧
      0 ≤ s.activeAuthors ∧ 0 ≤ s.booksPublished ∧ 0 ≤ s.countriesServed ∧
      (∃ v, s.totalRevenue.value? = some v ∧ 0 ≤ v) ∧
      ∃ v, s.averageRating.value? = some v ∧ 0 ≤ v ∧ v ≤ 5 := by
  rw [← inRange_iff]
  constructor
  · rintro ⟨text, h⟩
    have haccepted : s.Accepted := ⟨now, text, h⟩
    exact ⟨haccepted.sized, haccepted.inRange⟩
  · rintro ⟨hsized, h⟩
    exact exists_ofText_eq_value hsized h now

/-- A number that is too large for a double is read as the infinite revenue, and NaN is refused. -/
example :
    (ofText (.utc 0) "\x7b\"total_revenue\":1e999\x7d").value?.map (·.totalRevenue) =
        some (.infinite false) ∧
      (ofText (.utc 0) "\x7b\"total_revenue\":NaN\x7d").value? = none :=
  ⟨rfl, rfl⟩

end SplitTest.PlatformStats
