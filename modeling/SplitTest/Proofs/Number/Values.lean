import Mathlib
import SplitTest.Proofs.Number.Rounding

/-
  The values of doubles.
  Every double but NaN has a value on the extended real line, an infinity or a whole multiple of
  2^-1074. The values increase along the line of doubles (`strictMonoOn_valueAt`), so doubles compare
  as their values do (`le_eq_true_iff`), and NaN, which has none, compares with nothing.
-/

namespace SplitTest.Binary64

/-- The value of a double. -/
noncomputable def value? : Binary64 → Option EReal
  | nan => none
  | infinite true => some ⊥
  | infinite false => some ⊤
  | finite negative rank =>
    some (((if negative then -(unitsOf rank : ℝ) else unitsOf rank) / 2 ^ unitExponent : ℝ) : EReal)

/-- The value at a place between the infinities, in units of 2^-1074. -/
def unitsAt : Int → Int
  | .ofNat rank => unitsOf rank
  | .negSucc rank => -unitsOf (rank + 1)

/-- The value at a place on the line of doubles. -/
noncomputable def valueAt (place : Int) : EReal :=
  if place = ranks then ⊤
  else if place = -ranks then ⊥
  else ((unitsAt place / 2 ^ unitExponent : ℝ) : EReal)

variable {x y : Binary64} {a : Int}

theorem strictMono_unitsAt : StrictMono unitsAt := by
  refine strictMono_int_of_lt_succ fun a => ?_
  match a with
  | .ofNat rank => exact Int.ofNat_lt.2 (unitsOf_lt_succ rank)
  | .negSucc 0 => decide
  | .negSucc (rank + 1) => exact Int.neg_lt_neg (Int.ofNat_lt.2 (unitsOf_lt_succ (rank + 1)))

theorem unitsAt_neg (rank : Nat) : unitsAt (-rank) = -unitsOf rank := by
  cases rank with
  | zero => rfl
  | succ rank => rfl

/-- The places lie between those of the infinities. -/
theorem place_mem_Icc (h : x.place = some a) : a ∈ Set.Icc (-ranks : Int) ranks := by
  rw [Set.mem_Icc]
  match x with
  | .infinite true => cases h; omega
  | .infinite false => cases h; omega
  | .finite true rank =>
    cases h
    have := rank.isLt
    unfold ranks
    omega
  | .finite false rank =>
    cases h
    have := rank.isLt
    unfold ranks
    omega

theorem value?_eq (x : Binary64) : x.value? = x.place.map valueAt := by
  have hranks : (ranks : Int) ≠ -ranks := by decide
  match x with
  | .nan => rfl
  | .infinite true => rw [place, Option.map_some, valueAt, if_neg hranks.symm, if_pos rfl, value?]
  | .infinite false => rw [place, Option.map_some, valueAt, if_pos rfl, value?]
  | .finite negative rank =>
    have hrank : rank.val < ranks := rank.isLt
    cases negative with
    | true =>
      rw [place, Option.map_some, valueAt, if_neg (by omega), if_neg (by omega), unitsAt_neg, value?,
        if_pos rfl]
      push_cast
      rfl
    | false =>
      rw [place, Option.map_some, valueAt, if_neg (by omega), if_neg (by omega), value?]
      rfl

/-- The values increase along the line. -/
theorem strictMonoOn_valueAt : StrictMonoOn valueAt (Set.Icc (-ranks : Int) ranks) := by
  intro a ha b hb hab
  rw [Set.mem_Icc] at ha hb
  have hfirst : a ≠ ranks := by omega
  have hsecond : b ≠ -ranks := by omega
  unfold valueAt
  rw [if_neg hfirst, if_neg hsecond]
  split_ifs with hleast hgreatest
  · exact bot_lt_top
  · exact EReal.bot_lt_coe _
  · exact EReal.coe_lt_top _
  · have hunits : (unitsAt a : ℝ) < unitsAt b := Int.cast_lt.2 (strictMono_unitsAt hab)
    exact EReal.coe_lt_coe_iff.2 (div_lt_div_of_pos_right hunits (by positivity))

/-- Doubles compare as their values do. -/
theorem le_eq_true_iff :
    x.le y = true ↔ ∃ v w, x.value? = some v ∧ y.value? = some w ∧ v ≤ w := by
  rw [value?_eq, value?_eq]
  unfold le
  cases hx : x.place with
  | none => simp
  | some a =>
    cases hy : y.place with
    | none => simp
    | some b =>
      dsimp only
      rw [decide_eq_true_iff,
        ← strictMonoOn_valueAt.le_iff_le (place_mem_Icc hx) (place_mem_Icc hy)]
      constructor
      · exact fun h => ⟨_, _, rfl, rfl, h⟩
      · rintro ⟨_, _, ⟨⟩, ⟨⟩, h⟩
        exact h

theorem value?_zero : zero.value? = some 0 := by
  have hunits : unitsOf (0 : Magnitude).val = 0 := rfl
  rw [zero, value?, hunits]
  simp

end SplitTest.Binary64
