import Mathlib
import SplitTest.Allocation

/-
  The walk over the variants, in terms of prefix sums.
  With `trafficBefore vs i` the traffic of the first `i` variants, the walk stops at the first
  position whose prefix sum, the position's own traffic included, lies above the bucket. So the
  position of an allocation is `i` exactly when the sum before `i` is not above the bucket and,
  unless `i` is the last position, the next sum is (`position_pick_iff`).
-/

namespace SplitTest

/-! ## Prefix sums -/

/-- The traffic of the first `i` variants together, in percent. -/
def trafficBefore (vs : List Variant) (i : Nat) : Nat :=
  totalTraffic (vs.take i)

theorem trafficBefore_zero (vs : List Variant) : trafficBefore vs 0 = 0 := rfl

theorem trafficBefore_cons_succ (v : Variant) (vs : List Variant) (i : Nat) :
    trafficBefore (v :: vs) (i + 1) = v.traffic.val + trafficBefore vs i := by
  simp [trafficBefore, totalTraffic]

theorem trafficBefore_length (vs : List Variant) :
    trafficBefore vs vs.length = totalTraffic vs := by
  rw [trafficBefore, List.take_length]

theorem trafficBefore_succ (vs : List Variant) (i : Nat) (h : i < vs.length) :
    trafficBefore vs (i + 1) = trafficBefore vs i + vs[i].traffic.val := by
  induction vs generalizing i with
  | nil => simp at h
  | cons v vs ih =>
    rw [trafficBefore_cons_succ]
    cases i with
    | zero => simp [trafficBefore_zero]
    | succ i =>
      have hi : i < vs.length := by simpa using h
      rw [trafficBefore_cons_succ, ih i hi, List.getElem_cons_succ, Nat.add_assoc]

theorem trafficBefore_le_succ (vs : List Variant) (i : Nat) :
    trafficBefore vs i ≤ trafficBefore vs (i + 1) := by
  rcases Nat.lt_or_ge i vs.length with h | h
  · rw [trafficBefore_succ vs i h]
    exact Nat.le_add_right _ _
  · unfold trafficBefore
    rw [List.take_of_length_le h, List.take_of_length_le (by omega)]

theorem trafficBefore_mono (vs : List Variant) {i j : Nat} (h : i ≤ j) :
    trafficBefore vs i ≤ trafficBefore vs j := by
  induction j with
  | zero => rw [Nat.le_zero.1 h]
  | succ j ih =>
    rcases Nat.lt_or_eq_of_le h with h | h
    · exact Nat.le_trans (ih (by omega)) (trafficBefore_le_succ vs j)
    · rw [h]

/-! ## The walk -/

/-- A walk that stops at `position + i` has passed the first `i` ranges and none more. -/
theorem sliceOf_eq_some {bucket start position q : Nat} {v : Variant} {vs : List Variant}
    (h : sliceOf bucket start position vs = some (q, v)) :
    ∃ i, ∃ hi : i < vs.length, q = position + i ∧ v = vs[i] ∧
      bucket < start + trafficBefore vs (i + 1) ∧
      (i = 0 ∨ start + trafficBefore vs i ≤ bucket) := by
  induction vs generalizing start position with
  | nil => simp [sliceOf] at h
  | cons w ws ih =>
    by_cases hb : bucket < start + w.traffic.val
    · simp only [sliceOf, hb, if_true, Option.some.injEq, Prod.mk.injEq] at h
      refine ⟨0, by simp, h.1.symm, h.2.symm, ?_, Or.inl rfl⟩
      rw [trafficBefore_cons_succ, trafficBefore_zero]
      omega
    · simp only [sliceOf, hb, if_false] at h
      obtain ⟨i, hi, hq, hv, hlt, hle⟩ := ih h
      refine ⟨i + 1, by simpa using hi, by omega, by simpa using hv, ?_, Or.inr ?_⟩
      · rw [trafficBefore_cons_succ]
        omega
      · rw [trafficBefore_cons_succ]
        rcases hle with rfl | hle
        · rw [trafficBefore_zero]
          omega
        · omega

/-- A walk that does not stop has passed all ranges. -/
theorem sliceOf_eq_none {bucket start position : Nat} {vs : List Variant}
    (h : sliceOf bucket start position vs = none) (hs : start ≤ bucket) :
    start + trafficBefore vs vs.length ≤ bucket := by
  induction vs generalizing start position with
  | nil => simpa [trafficBefore, totalTraffic] using hs
  | cons w ws ih =>
    by_cases hb : bucket < start + w.traffic.val
    · simp [sliceOf, hb] at h
    · simp only [sliceOf, hb, if_false] at h
      have := ih h (by omega)
      rw [List.length_cons, trafficBefore_cons_succ]
      omega

/-! ## The position of an allocation -/

/-- What is known about the position that a bucket leads to. -/
theorem position_pick_spec (bucket : Bucket) (first : Variant) (more : List Variant) :
    (pick bucket first more).position ≤ more.length ∧
    trafficBefore (first :: more) (pick bucket first more).position ≤ bucket.val ∧
    ((pick bucket first more).position < more.length →
      bucket.val < trafficBefore (first :: more) ((pick bucket first more).position + 1)) := by
  unfold pick
  cases h : sliceOf bucket.val 0 0 (first :: more) with
  | none =>
    have := sliceOf_eq_none h (Nat.zero_le _)
    have hm := trafficBefore_le_succ (first :: more) more.length
    simp only [List.length_cons] at this
    exact ⟨Nat.le_refl _, by dsimp only; omega, fun hlt => absurd hlt (Nat.lt_irrefl _)⟩
  | some r =>
    obtain ⟨i, hi, hq, -, hlt, hle⟩ := sliceOf_eq_some h
    simp only [List.length_cons] at hi
    have hq' : r.1 = i := by omega
    simp only [hq']
    refine ⟨by omega, ?_, fun _ => by omega⟩
    rcases hle with rfl | hle
    · rw [trafficBefore_zero]
      exact Nat.zero_le _
    · omega

/-- The position of an allocation is `i` exactly when the bucket lies in the range of `i`; the
    last range reaches up to the end. -/
theorem position_pick_iff (bucket : Bucket) (first : Variant) (more : List Variant) (i : Nat) :
    (pick bucket first more).position = i ↔
      i ≤ more.length ∧ trafficBefore (first :: more) i ≤ bucket.val ∧
        (i < more.length → bucket.val < trafficBefore (first :: more) (i + 1)) := by
  obtain ⟨hlen, hle, hlt⟩ := position_pick_spec bucket first more
  constructor
  · intro heq
    subst heq
    exact ⟨hlen, hle, hlt⟩
  · intro hparts
    obtain ⟨hlen', hle', hlt'⟩ := hparts
    -- of two different positions, the range of the smaller ends before that of the greater starts
    rcases Nat.lt_trichotomy (pick bucket first more).position i with h | h | h
    · have := trafficBefore_mono (first :: more) (Nat.succ_le_of_lt h)
      have := hlt (by omega)
      simp only [Nat.succ_eq_add_one] at *
      omega
    · exact h
    · have := trafficBefore_mono (first :: more) (Nat.succ_le_of_lt h)
      have := hlt' (by omega)
      simp only [Nat.succ_eq_add_one] at *
      omega

end SplitTest
