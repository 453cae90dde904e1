import Mathlib
import SplitTest.Number.Notation
import SplitTest.Number.Numeral

/-
  Decimal digits: what a list of digits spells, and where a run of digits ends.
-/

namespace SplitTest

/-- Every character is a decimal digit. -/
def AllDigits (cs : List Char) : Prop := ∀ c ∈ cs, c.isDigit = true

/-- The text does not go on with a digit. -/
def NoDigitNext (cs : List Char) : Prop := ∀ c ∈ cs.head?, c.isDigit = false

theorem noDigitNext_nil : NoDigitNext [] := by
  intro c hc
  simp at hc

theorem noDigitNext_cons {c : Char} {cs : List Char} (h : c.isDigit = false) :
    NoDigitNext (c :: cs) := by
  intro d hd
  simp only [List.head?_cons, Option.mem_def, Option.some.injEq] at hd
  rw [← hd]
  exact h

theorem allDigits_cons {c : Char} {cs : List Char} :
    AllDigits (c :: cs) ↔ c.isDigit = true ∧ AllDigits cs := by
  simp [AllDigits]

theorem allDigits_append {as bs : List Char} :
    AllDigits (as ++ bs) ↔ AllDigits as ∧ AllDigits bs := by
  simp only [AllDigits, List.mem_append]
  constructor
  · intro h
    exact ⟨fun c hc => h c (Or.inl hc), fun c hc => h c (Or.inr hc)⟩
  · rintro ⟨ha, hb⟩ c (hc | hc)
    · exact ha c hc
    · exact hb c hc

theorem allDigits_replicate_zero (n : Nat) : AllDigits (List.replicate n '0') := by
  intro c hc
  rw [List.eq_of_mem_replicate hc]
  decide

theorem allDigits_toDigits (n : Nat) : AllDigits (Nat.toDigits 10 n) :=
  fun _ hc => Nat.isDigit_of_mem_toDigits (by decide) (by decide) hc

/-! ## Splitting digits off -/

theorem splitDigits_append {ds rest : List Char} (hd : AllDigits ds) (hr : NoDigitNext rest) :
    splitDigits (ds ++ rest) = (ds, rest) := by
  have ht : rest.takeWhile Char.isDigit = [] ∧ rest.dropWhile Char.isDigit = rest := by
    cases rest with
    | nil => simp
    | cons c cs =>
      have hc := hr c (by simp)
      simp [hc]
  unfold splitDigits
  rw [List.takeWhile_append_of_pos hd, List.dropWhile_append_of_pos hd, ht.1, ht.2,
    List.append_nil]

theorem allDigits_splitDigits (cs : List Char) : AllDigits (splitDigits cs).1 := by
  intro c hc
  exact List.mem_takeWhile_imp hc

/-! ## Values -/

theorem digitsValue_toDigits (n : Nat) : digitsValue (Nat.toDigits 10 n) = n :=
  Nat.ofDigitChars_ten_toDigits

theorem digitsValue_append (as bs : List Char) :
    digitsValue (as ++ bs) = digitsValue as * 10 ^ bs.length + digitsValue bs := by
  unfold digitsValue
  rw [Nat.ofDigitChars_append, Nat.ofDigitChars_eq_ofDigitChars_zero, Nat.mul_comm]

theorem digitsValue_replicate_zero (n : Nat) : digitsValue (List.replicate n '0') = 0 := by
  simp [digitsValue]

theorem digitsValue_cons_zero (cs : List Char) : digitsValue ('0' :: cs) = digitsValue cs := by
  simp [digitsValue, Nat.ofDigitChars_cons]

theorem digitsValue_lt {cs : List Char} (h : AllDigits cs) : digitsValue cs < 10 ^ cs.length := by
  induction cs with
  | nil => simp [digitsValue]
  | cons c cs ih =>
    rw [allDigits_cons] at h
    have hc : c.toNat - '0'.toNat ≤ 9 := by
      have h57 : c.toNat ≤ 57 := by
        simp only [Char.isDigit, Bool.and_eq_true, decide_eq_true_eq] at h
        simpa [Char.le_def, UInt32.le_iff_toNat_le] using h.1.2
      have h48 : '0'.toNat = 48 := rfl
      omega
    have hrest := ih h.2
    have hone : digitsValue [c] = c.toNat - '0'.toNat := by
      simp [digitsValue, Nat.ofDigitChars_cons]
    calc digitsValue (c :: cs)
        = digitsValue [c] * 10 ^ cs.length + digitsValue cs := digitsValue_append [c] cs
      _ < 9 * 10 ^ cs.length + 10 ^ cs.length := by
          rw [hone]
          exact Nat.add_lt_add_of_le_of_lt (Nat.mul_le_mul_right _ hc) hrest
      _ = 10 ^ (c :: cs).length := by rw [List.length_cons, Nat.pow_succ]; omega

/-! ## The digits of a number -/

/-- A positive number is written without a zero in front. -/
theorem head?_toDigits_ne_zero {n : Nat} (h : 0 < n) :
    (Nat.toDigits 10 n).head? ≠ some '0' := by
  induction n using Nat.strongRecOn with
  | ind n ih =>
    rcases Nat.lt_or_ge n 10 with hn | hn
    · rw [Nat.toDigits_of_lt_base hn]
      intro h0
      simp only [List.head?_cons, Option.some.injEq] at h0
      have hv := Nat.toNat_digitChar_sub_48_of_lt_ten hn
      rw [h0] at hv
      simp at hv
      omega
    · rw [Nat.toDigits_of_base_le (by decide) hn, List.head?_append_of_ne_nil]
      · exact ih (n / 10) (by omega) (by omega)
      · exact Nat.toDigits_ne_nil

/-- Dropping the zeros at the end only takes zeros away. -/
theorem eq_dropTrailingZeros_append (cs : List Char) :
    cs = Binary64.dropTrailingZeros cs ++
      List.replicate (cs.length - (Binary64.dropTrailingZeros cs).length) '0' := by
  have hrev := List.takeWhile_append_dropWhile (p := (· == '0')) (l := cs.reverse)
  have hzeros : cs.reverse.takeWhile (· == '0') =
      List.replicate (cs.reverse.takeWhile (· == '0')).length '0' := by
    rw [List.eq_replicate_iff]
    refine ⟨rfl, fun c hc => ?_⟩
    simpa using List.mem_takeWhile_imp hc
  have hlen : cs.length - (Binary64.dropTrailingZeros cs).length =
      (cs.reverse.takeWhile (· == '0')).length := by
    have := congrArg List.length hrev
    simp only [List.length_append, List.length_reverse] at this
    simp only [Binary64.dropTrailingZeros, List.length_reverse]
    omega
  rw [hlen]
  calc cs = (cs.reverse.takeWhile (· == '0') ++ cs.reverse.dropWhile (· == '0')).reverse := by
        rw [hrev, List.reverse_reverse]
    _ = Binary64.dropTrailingZeros cs ++ (cs.reverse.takeWhile (· == '0')).reverse := by
        rw [List.reverse_append, Binary64.dropTrailingZeros]
    _ = _ := by
        rw [hzeros, List.reverse_replicate, List.length_replicate]

theorem length_dropTrailingZeros_le (cs : List Char) :
    (Binary64.dropTrailingZeros cs).length ≤ cs.length := by
  have := congrArg List.length (eq_dropTrailingZeros_append cs)
  simp only [List.length_append, List.length_replicate] at this
  omega

theorem allDigits_dropTrailingZeros {cs : List Char} (h : AllDigits cs) :
    AllDigits (Binary64.dropTrailingZeros cs) := by
  rw [eq_dropTrailingZeros_append cs, allDigits_append] at h
  exact h.1

theorem digitsValue_dropTrailingZeros (cs : List Char) :
    digitsValue cs = digitsValue (Binary64.dropTrailingZeros cs) *
      10 ^ (cs.length - (Binary64.dropTrailingZeros cs).length) := by
  conv => lhs; rw [eq_dropTrailingZeros_append cs]
  rw [digitsValue_append, digitsValue_replicate_zero, List.length_replicate, Nat.add_zero]

theorem head?_dropTrailingZeros {cs : List Char} (h : Binary64.dropTrailingZeros cs ≠ []) :
    (Binary64.dropTrailingZeros cs).head? = cs.head? := by
  conv => rhs; rw [eq_dropTrailingZeros_append cs]
  rw [List.head?_append_of_ne_nil _ h]

end SplitTest
