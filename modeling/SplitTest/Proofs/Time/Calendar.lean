import Mathlib
import SplitTest.Time.Date

/-
  Days and dates are the same thing.
  Peeling years and months off a number of days loses nothing: the date exists, and its ordinal is
  that number again (`toOrdinal_ofOrdinal`, `exists_ofOrdinal`).
-/

namespace SplitTest.Date

/-! ## Years -/

theorem sum_monthLengths (year : Nat) :
    (monthLengths year).sum = if isLeap year then 366 else 365 := by
  unfold monthLengths
  split_ifs <;> rfl

theorem isLeap_iff (year : Nat) :
    isLeap year = true ↔ year % 4 = 0 ∧ (year % 100 ≠ 0 ∨ year % 400 = 0) := by
  simp [isLeap]

/-- The years that are peeled off, with the days that are left of the last one. -/
theorem exists_peelYears (ordinal : Nat) : ∃ n400 n100 n4 n1 rest, n100 ≤ 3 ∧ n4 ≤ 24 ∧ n1 ≤ 3 ∧
    peelYears ordinal = (400 * n400 + 100 * n100 + 4 * n4 + n1, rest) ∧
    ordinal = 146097 * n400 + 36524 * n100 + 1461 * n4 + 365 * n1 + rest ∧ rest ≤ 365 ∧
    (rest = 365 → n1 = 3 ∧ (n4 = 24 → n100 = 3)) := by
  obtain ⟨n100, hn100⟩ : ∃ n, n = min 3 (ordinal % 146097 / 36524) := ⟨_, rfl⟩
  obtain ⟨rest100, hrest100⟩ : ∃ n, n = ordinal % 146097 - 36524 * n100 := ⟨_, rfl⟩
  obtain ⟨n1, hn1⟩ : ∃ n, n = min 3 (rest100 % 1461 / 365) := ⟨_, rfl⟩
  refine ⟨ordinal / 146097, n100, rest100 / 1461, n1, rest100 % 1461 - 365 * n1,
    by omega, by omega, by omega, ?_, by omega, by omega, by omega⟩
  simp only [peelYears, ← hn100, ← hrest100, ← hn1]

/-- The days before the year that was reached, and what is left, make up all days. -/
theorem daysBeforeYear_peelYears (ordinal : Nat) :
    daysBeforeYear ((peelYears ordinal).1 + 1) + (peelYears ordinal).2 = ordinal := by
  obtain ⟨n400, n100, n4, n1, rest, h100, h4, h1, heq, hsum, -, -⟩ := exists_peelYears ordinal
  rw [heq]
  simp only [daysBeforeYear, Nat.add_sub_cancel]
  omega

/-- What is left are fewer days than the year has. -/
theorem peelYears_rest_lt (ordinal : Nat) :
    (peelYears ordinal).2 < (monthLengths ((peelYears ordinal).1 + 1)).sum := by
  obtain ⟨n400, n100, n4, n1, rest, h100, h4, h1, heq, -, hrest, hlast⟩ := exists_peelYears ordinal
  rw [heq, sum_monthLengths]
  dsimp only
  split_ifs with hleap
  · omega
  · rw [isLeap_iff] at hleap
    omega

theorem peelYears_lt (ordinal : Nat) (h : ordinal < days) : (peelYears ordinal).1 < 9999 := by
  obtain ⟨n400, n100, n4, n1, rest, h100, h4, h1, heq, hsum, -, -⟩ := exists_peelYears ordinal
  rw [heq]
  unfold days at h
  dsimp only
  omega

/-! ## Months -/

/-- The months before the one that was reached, and what is left, make up all days; what is left are
    fewer days than that month has. -/
theorem peelMonths_spec {lengths : List Nat} {n : Nat} (h : n < lengths.sum) :
    (lengths.take (peelMonths lengths n).1).sum + (peelMonths lengths n).2 = n ∧
      (peelMonths lengths n).2 < lengths.getD (peelMonths lengths n).1 0 := by
  induction lengths generalizing n with
  | nil => simp at h
  | cons length lengths ih =>
    rw [List.sum_cons] at h
    unfold peelMonths
    by_cases hn : n < length
    · rw [if_pos hn]
      simpa using hn
    · rw [if_neg hn]
      obtain ⟨hsum, hlt⟩ := ih (n := n - length) (by omega)
      simp only [List.take_succ_cons, List.sum_cons, List.getD_cons_succ]
      exact ⟨by omega, hlt⟩

theorem peelMonths_lt {lengths : List Nat} {n : Nat} (h : n < lengths.sum) :
    (peelMonths lengths n).1 < lengths.length := by
  by_contra hle
  have hlt := (peelMonths_spec h).2
  rw [List.getD_eq_default _ _ (Nat.le_of_not_lt hle)] at hlt
  omega

theorem getD_monthLengths_le (year month : Nat) : (monthLengths year).getD month 0 ≤ 31 := by
  rcases Nat.lt_or_ge month 12 with hm | hm
  · unfold monthLengths
    split_ifs <;> interval_cases month <;> decide
  · rw [List.getD_eq_default _ _ (by simpa [monthLengths] using hm)]
    decide

/-! ## Dates -/

/-- Every day of the calendar is the day of its date. -/
theorem toOrdinal_ofOrdinal (ordinal : Nat) : (ofOrdinal ordinal).toOrdinal = ordinal := by
  have hyears := daysBeforeYear_peelYears ordinal
  have hmonths := (peelMonths_spec (peelYears_rest_lt ordinal)).1
  simp only [toOrdinal, ofOrdinal, daysBeforeMonth, Nat.add_sub_cancel]
  omega

/-- The date of a day exists. -/
theorem exists_ofOrdinal (ordinal : Nat) : (ofOrdinal ordinal).exists? = true := by
  have hmonths := (peelMonths_spec (peelYears_rest_lt ordinal)).2
  unfold exists? ofOrdinal
  dsimp only
  rw [Nat.add_sub_cancel, Bool.and_eq_true, Bool.and_eq_true, decide_eq_true_eq,
    decide_eq_true_eq, decide_eq_true_eq]
  exact ⟨⟨Nat.le_add_left _ _, Nat.le_add_left _ _⟩, hmonths⟩

/-- The parts of the date of a day are as short as they are written. -/
theorem ofOrdinal_bounds {ordinal : Nat} (h : ordinal < days) :
    0 < (ofOrdinal ordinal).year ∧ (ofOrdinal ordinal).year < 10 ^ 4 ∧
      (ofOrdinal ordinal).month < 10 ^ 2 ∧ (ofOrdinal ordinal).day < 10 ^ 2 := by
  have hyear := peelYears_lt ordinal h
  have hrest := peelYears_rest_lt ordinal
  have hmonth := peelMonths_lt hrest
  have hday := (peelMonths_spec hrest).2.trans_le (getD_monthLengths_le _ _)
  have hlen : (monthLengths ((peelYears ordinal).1 + 1)).length = 12 := rfl
  simp only [ofOrdinal]
  omega

end SplitTest.Date
