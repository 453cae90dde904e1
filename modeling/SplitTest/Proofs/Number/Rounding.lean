import Mathlib
import SplitTest.Number.Shortest

/-
  Rounding to the nearest double.
  `rankBelow` undoes `unitsOf` (`rankBelow_unitsOf`), the nearest rank of a ratio does not depend
  on how the ratio is written (`nearestRank_mul_right`), and a decimal is read as its nearest
  rank: the shortcuts of `ofDecimal` change no result (`ofDecimal_eq_ofRank`).
-/

namespace SplitTest

namespace Binary64

/-! ## Ranks and their values -/

theorem unitsOf_of_lt {r : Nat} (h : r < 2 ^ 52) : unitsOf r = r := by
  rw [unitsOf, if_pos h]

/-- Beyond the first ranks a rank is an exponent with 52 further bits. -/
theorem unitsOf_eq {q f : Nat} (hf : f < 2 ^ 52) :
    unitsOf ((q + 1) * 2 ^ 52 + f) = (2 ^ 52 + f) * 2 ^ q := by
  have hdiv : ((q + 1) * 2 ^ 52 + f) / 2 ^ 52 = q + 1 := by omega
  have hmod : ((q + 1) * 2 ^ 52 + f) % 2 ^ 52 = f := by omega
  rw [unitsOf, if_neg (by omega), hdiv, hmod, Nat.add_sub_cancel]

theorem exists_exponent {r : Nat} (h : 2 ^ 52 ≤ r) :
    ∃ q f, f < 2 ^ 52 ∧ r = (q + 1) * 2 ^ 52 + f :=
  ⟨r / 2 ^ 52 - 1, r % 2 ^ 52, Nat.mod_lt _ (by decide), by omega⟩

theorem unitsOf_lt_succ (r : Nat) : unitsOf r < unitsOf (r + 1) := by
  rcases Nat.lt_or_ge r (2 ^ 52) with h | h
  · rw [unitsOf_of_lt h]
    rcases Nat.lt_or_eq_of_le (Nat.succ_le_of_lt h) with h' | h'
    · rw [unitsOf_of_lt h']
      exact Nat.lt_succ_self r
    · have hq := unitsOf_eq (q := 0) (f := 0) (by decide)
      rw [Nat.succ_eq_add_one] at h'
      rw [h', show 2 ^ 52 = (0 + 1) * 2 ^ 52 + 0 by rfl, hq]
      omega
  · obtain ⟨q, f, hf, rfl⟩ := exists_exponent h
    have hp : 0 < 2 ^ q := Nat.two_pow_pos q
    rw [unitsOf_eq hf]
    rcases Nat.lt_or_eq_of_le (Nat.succ_le_of_lt hf) with hf' | hf'
    · rw [Nat.add_assoc, unitsOf_eq hf']
      exact Nat.mul_lt_mul_of_pos_right (by omega) hp
    · -- the last rank of one exponent: the next exponent starts with twice the scale
      have hnext : (q + 1) * 2 ^ 52 + f + 1 = (q + 1 + 1) * 2 ^ 52 + 0 := by omega
      rw [hnext, unitsOf_eq (by decide), Nat.add_zero, Nat.pow_succ 2 q]
      calc (2 ^ 52 + f) * 2 ^ q < (2 ^ 52 * 2) * 2 ^ q :=
            Nat.mul_lt_mul_of_pos_right (by omega) hp
        _ = 2 ^ 52 * (2 ^ q * 2) := by ring

theorem rankBelow_of_lt {units : Nat} (h : units < 2 ^ 52) : rankBelow units = units := by
  rw [rankBelow, if_pos h]

theorem rankBelow_unitsOf (r : Nat) : rankBelow (unitsOf r) = r := by
  rcases Nat.lt_or_ge r (2 ^ 52) with h | h
  · rw [unitsOf_of_lt h, rankBelow_of_lt h]
  · obtain ⟨q, f, hf, rfl⟩ := exists_exponent h
    have hlog : ((2 ^ 52 + f) * 2 ^ q).log2 = 52 + q := by
      rw [Nat.log2_eq_iff (by positivity)]
      constructor
      · rw [Nat.pow_add]
        exact Nat.mul_le_mul_right _ (by omega)
      · rw [show 52 + q + 1 = 53 + q by omega, Nat.pow_add]
        exact Nat.mul_lt_mul_of_pos_right (by omega) (Nat.two_pow_pos q)
    have hbig : ¬ (2 ^ 52 + f) * 2 ^ q < 2 ^ 52 := by
      have := Nat.le_mul_of_pos_right (2 ^ 52 + f) (Nat.two_pow_pos q)
      omega
    rw [unitsOf_eq hf, rankBelow, if_neg hbig]
    dsimp only
    rw [hlog, Nat.add_sub_cancel_left, Nat.mul_div_cancel _ (Nat.two_pow_pos q)]
    omega

/-- A value of at least `2 ^ (k + 52)` units has a rank of at least `(k + 1) * 2 ^ 52`. -/
theorem le_rankBelow {k units : Nat} (h : 2 ^ (k + 52) ≤ units) :
    (k + 1) * 2 ^ 52 ≤ rankBelow units := by
  have hpos : units ≠ 0 := by
    have := Nat.two_pow_pos (k + 52)
    omega
  have hlog : k + 52 ≤ units.log2 := (Nat.le_log2 hpos).2 h
  have hbig : ¬ units < 2 ^ 52 := by
    have : 2 ^ 52 ≤ 2 ^ (k + 52) := Nat.pow_le_pow_right (by decide) (by omega)
    omega
  have hshift : 2 ^ 52 ≤ units / 2 ^ (units.log2 - 52) := by
    rw [Nat.le_div_iff_mul_le (Nat.two_pow_pos _), ← Nat.pow_add,
      show 52 + (units.log2 - 52) = units.log2 by omega]
    exact Nat.log2_self_le hpos
  rw [rankBelow, if_neg hbig]
  dsimp only
  have hk : k * 2 ^ 52 ≤ (units.log2 - 52) * 2 ^ 52 := Nat.mul_le_mul_right _ (by omega)
  rw [Nat.add_mul, Nat.one_mul]
  exact Nat.add_le_add hk hshift

/-! ## The nearest rank -/

/-- Only the ratio matters. -/
theorem nearestRank_mul_right {num den k : Nat} (hk : 0 < k) :
    nearestRank (num * k) (den * k) = nearestRank num den := by
  have hscale : num * k * 2 ^ unitExponent = num * 2 ^ unitExponent * k := by ring
  unfold nearestRank
  dsimp only
  rw [hscale, Nat.mul_div_mul_right _ _ hk]
  generalize rankBelow (num * 2 ^ unitExponent / den) = low
  generalize num * 2 ^ unitExponent = scaled
  generalize unitsOf low + unitsOf (low + 1) = sum
  have hleft : 2 * (scaled * k) = (2 * scaled) * k := by ring
  have hright : sum * (den * k) = (sum * den) * k := by ring
  rw [hleft, hright]
  simp only [Nat.mul_lt_mul_right hk]

/-- A ratio that is the value of a rank is rounded to that rank. -/
theorem nearestRank_of_eq {num den r : Nat} (hden : 0 < den)
    (h : num * 2 ^ unitExponent = unitsOf r * den) : nearestRank num den = r := by
  have hlow : rankBelow (unitsOf r * den / den) = r := by
    rw [Nat.mul_div_cancel _ hden, rankBelow_unitsOf]
  have hlt : 2 * (unitsOf r * den) < (unitsOf r + unitsOf (r + 1)) * den := by
    have := Nat.mul_lt_mul_of_pos_right (unitsOf_lt_succ r) hden
    rw [Nat.add_mul]
    omega
  unfold nearestRank
  dsimp only
  rw [h, hlow, if_pos hlt]

theorem nearestRank_zero {den : Nat} (hden : 0 < den) : nearestRank 0 den = 0 :=
  nearestRank_of_eq hden (by rw [unitsOf_of_lt (by decide), Nat.zero_mul, Nat.zero_mul])

/-- A ratio below half of the finest unit is rounded to zero. -/
theorem nearestRank_eq_zero {num den : Nat} (h : num * 2 ^ (unitExponent + 1) < den) :
    nearestRank num den = 0 := by
  have hsmall : 2 * (num * 2 ^ unitExponent) < den := by
    generalize unitExponent = e at h ⊢
    rwa [Nat.pow_succ, ← Nat.mul_assoc, Nat.mul_comm _ 2] at h
  have hdiv : num * 2 ^ unitExponent / den = 0 := Nat.div_eq_of_lt (by omega)
  have hone : unitsOf (0 + 1) = 1 := unitsOf_of_lt (by decide)
  unfold nearestRank
  dsimp only
  rw [hdiv, rankBelow_of_lt (by decide), unitsOf_of_lt (by decide), hone, if_pos (by omega)]

theorem le_nearestRank (num den : Nat) :
    rankBelow (num * 2 ^ unitExponent / den) ≤ nearestRank num den := by
  unfold nearestRank
  dsimp only
  split_ifs <;> omega

/-! ## Decimals -/

theorem two_pow_le_ten_pow {k n : Nat} (h : k ≤ 3 * n) : 2 ^ k ≤ 10 ^ n := calc
  2 ^ k ≤ 2 ^ (3 * n) := Nat.pow_le_pow_right (by decide) h
  _ = (2 ^ 3) ^ n := Nat.pow_mul 2 3 n
  _ ≤ 10 ^ n := Nat.pow_le_pow_left (by decide) n

/-- A number above 10^400 lies beyond the finite ranks. -/
theorem ranks_le_nearestRank {digits n : Nat} (hd : digits ≠ 0) (hn : 400 < n) :
    ranks ≤ nearestRank (digits * 10 ^ n) 1 := by
  obtain ⟨k, hk⟩ : ∃ k, k = 1024 := ⟨_, rfl⟩
  have hpow : 2 ^ k ≤ 10 ^ n := two_pow_le_ten_pow (by omega)
  have hdigits : 10 ^ n ≤ digits * 10 ^ n := Nat.le_mul_of_pos_left _ (by omega)
  have hunits : 2 ^ (2046 + 52) ≤ digits * 10 ^ n * 2 ^ unitExponent / 1 := by
    rw [Nat.div_one, show 2046 + 52 = k + unitExponent by rw [hk]; rfl, Nat.pow_add]
    exact Nat.mul_le_mul_right _ (Nat.le_trans hpow hdigits)
  calc ranks = (2046 + 1) * 2 ^ 52 := rfl
    _ ≤ rankBelow (digits * 10 ^ n * 2 ^ unitExponent / 1) := le_rankBelow hunits
    _ ≤ nearestRank (digits * 10 ^ n) 1 := le_nearestRank _ _

/-- A number below 10^-400 is rounded to zero. -/
theorem nearestRank_eq_zero_of_tiny {digits n : Nat} (hn : 400 + (digits.log2 + 1) < n) :
    nearestRank digits (10 ^ n) = 0 := by
  obtain ⟨k, hk⟩ : ∃ k, k = 400 := ⟨_, rfl⟩
  apply nearestRank_eq_zero
  have hdigits : digits < 10 ^ (digits.log2 + 1) := calc
    digits < 2 ^ (digits.log2 + 1) := Nat.lt_log2_self
    _ ≤ 10 ^ (digits.log2 + 1) := Nat.pow_le_pow_left (by decide) _
  have hunit : 2 ^ (unitExponent + 1) ≤ 10 ^ k :=
    two_pow_le_ten_pow (by rw [hk]; decide)
  calc digits * 2 ^ (unitExponent + 1)
      ≤ digits * 10 ^ k := Nat.mul_le_mul_left _ hunit
    _ < 10 ^ (digits.log2 + 1) * 10 ^ k :=
        Nat.mul_lt_mul_of_pos_right hdigits (Nat.pow_pos (by decide))
    _ = 10 ^ (k + (digits.log2 + 1)) := by rw [← Nat.pow_add, Nat.add_comm]
    _ ≤ 10 ^ n := Nat.pow_le_pow_right (by decide) (by omega)

theorem ofRank_zero (negative : Bool) : ofRank negative 0 = .finite negative 0 := rfl

theorem ofRank_of_le {r : Nat} (h : ranks ≤ r) (negative : Bool) :
    ofRank negative r = .infinite negative := by
  rw [ofRank, dif_neg]
  rw [ranks] at h
  omega

theorem ofRank_val (negative : Bool) (r : Magnitude) :
    ofRank negative r.val = .finite negative r := by
  rw [ofRank, dif_pos r.isLt]

end Binary64

namespace Decimal

open Binary64

theorem rank_of_nonneg {d : Decimal} {n : Nat} (h : d.exponent = n) :
    d.rank = nearestRank (d.digits * 10 ^ n) 1 := by
  rw [rank, if_pos (by omega), h, Int.toNat_natCast]

theorem rank_of_nonpos {d : Decimal} {n : Nat} (h : d.exponent = -(n : Int)) :
    d.rank = nearestRank d.digits (10 ^ n) := by
  rcases Nat.eq_zero_or_pos n with rfl | hn
  · rw [rank_of_nonneg (n := 0) (by omega), Nat.pow_zero, Nat.mul_one]
  · rw [rank, if_neg (by omega), h, Int.neg_neg, Int.toNat_natCast]

/-- Zeros at the end of the digits can be moved into the exponent. -/
theorem rank_shift (digits k : Nat) (e : Int) :
    rank ⟨digits * 10 ^ k, e⟩ = rank ⟨digits, e + k⟩ := by
  rcases Int.le_total 0 e with he | he
  · obtain ⟨n, rfl⟩ := Int.eq_ofNat_of_zero_le he
    rw [rank_of_nonneg (n := n) rfl, rank_of_nonneg (n := n + k) (by simp)]
    rw [Nat.mul_assoc, ← Nat.pow_add, Nat.add_comm k n]
  · obtain ⟨n, hn⟩ := Int.eq_ofNat_of_zero_le (Int.neg_nonneg_of_nonpos he)
    rw [rank_of_nonpos (n := n) (by simp; omega)]
    rcases Nat.le_total n k with hk | hk
    · obtain ⟨m, rfl⟩ := Nat.exists_eq_add_of_le hk
      rw [rank_of_nonneg (n := m) (by simp; omega)]
      dsimp only
      have hscale : nearestRank (digits * 10 ^ m * 10 ^ n) (1 * 10 ^ n) =
          nearestRank (digits * 10 ^ m) 1 := nearestRank_mul_right (Nat.pow_pos (by decide))
      rw [Nat.add_comm n m, Nat.pow_add, ← Nat.mul_assoc, ← hscale, Nat.one_mul]
    · obtain ⟨m, rfl⟩ := Nat.exists_eq_add_of_le hk
      rw [rank_of_nonpos (n := m) (by simp; omega), Nat.add_comm k m, Nat.pow_add,
        nearestRank_mul_right (Nat.pow_pos (by decide))]

theorem rank_zero (e : Int) : rank ⟨0, e⟩ = 0 := by
  rcases Int.le_total 0 e with he | he
  · obtain ⟨n, rfl⟩ := Int.eq_ofNat_of_zero_le he
    rw [rank_of_nonneg (n := n) rfl, Nat.zero_mul, nearestRank_zero Nat.one_pos]
  · obtain ⟨n, hn⟩ := Int.eq_ofNat_of_zero_le (Int.neg_nonneg_of_nonpos he)
    rw [rank_of_nonpos (n := n) (by simp; omega), nearestRank_zero (Nat.pow_pos (by decide))]

end Decimal

/-- A decimal is read as its nearest rank; what `ofDecimal` answers without computing the power
    is the same. -/
theorem Binary64.ofDecimal_eq_ofRank (negative : Bool) (digits : Nat) (e : Int) :
    ofDecimal negative digits e = ofRank negative (Decimal.rank ⟨digits, e⟩) := by
  unfold ofDecimal
  split_ifs with h0 hbig htiny hpos
  · rw [h0, Decimal.rank_zero, ofRank_zero]
  · obtain ⟨n, rfl⟩ := Int.eq_ofNat_of_zero_le (by omega : 0 ≤ e)
    rw [Decimal.rank_of_nonneg (n := n) rfl,
      ofRank_of_le (ranks_le_nearestRank h0 (by omega))]
  · obtain ⟨n, hn⟩ := Int.eq_ofNat_of_zero_le (by omega : 0 ≤ -e)
    have hn' : 400 + (digits.log2 + 1) < n := by omega
    rw [Decimal.rank_of_nonpos (n := n) (by simp; omega), nearestRank_eq_zero_of_tiny hn',
      ofRank_zero]
  · rw [Decimal.rank, if_pos hpos, ofRatio]
  · rw [Decimal.rank, if_neg hpos, ofRatio]

namespace Decimal

open Binary64

/-- The exact expansion of a value has the value's rank. -/
theorem rank_exact (r : Nat) : (exact (unitsOf r)).rank = r := by
  rw [rank_of_nonpos (n := unitExponent) rfl]
  apply nearestRank_of_eq (Nat.pow_pos (by decide))
  rw [exact, Nat.mul_assoc, ← Nat.mul_pow]

/-- The shortest decimal of a rank reads back as that rank. -/
theorem rank_shortest (r : Nat) : (shortest r).rank = r := by
  unfold shortest
  dsimp only
  cases h : (List.range 17).findSome? fun n =>
      candidate r (unitsOf r) (wholeDigits (unitsOf r) - (n + 1 : Nat)) with
  | none => exact rank_exact r
  | some d =>
    obtain ⟨n, -, hd⟩ := List.exists_of_findSome?_eq_some h
    exact rank_candidate hd

theorem digits_shortest_ne_zero {r : Nat} (hr : r ≠ 0) : (shortest r).digits ≠ 0 := by
  intro h0
  have h := rank_shortest r
  have heta : shortest r = ⟨0, (shortest r).exponent⟩ := by rw [← h0]
  rw [heta, rank_zero] at h
  exact hr h.symm

end Decimal

end SplitTest
