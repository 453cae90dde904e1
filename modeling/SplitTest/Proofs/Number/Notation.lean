import Mathlib
import SplitTest.Json.Token
import SplitTest.Proofs.Number.Digits
import SplitTest.Proofs.Number.Rounding

/-
  The text of a finite double is read back as that double.
  `Numeral.text` puts a numeral together again, and `Numeral.read` undoes it (`read_text`). Every
  form that a double is written in, positional or with an exponent, is the text of a numeral that
  JSON admits and whose value is the double (`exists_numeral_render`).
-/

namespace SplitTest

namespace Numeral

/-! ## Putting a numeral together -/

/-- The text of a sign. -/
def signText : Option Sign → List Char
  | none => []
  | some .plus => ['+']
  | some .minus => ['-']

/-- The text of a fraction, with its point. -/
def fractionText : Option (List Char) → List Char
  | none => []
  | some digits => '.' :: digits

/-- The text of an exponent, with its mark. -/
def exponentText : Option (Option Sign × List Char) → List Char
  | none => []
  | some (sign, digits) => 'e' :: (signText sign ++ digits)

/-- The text of a numeral. -/
def text (n : Numeral) : List Char :=
  signText n.sign ++ (n.whole ++ (fractionText n.fraction ++ exponentText n.exponent))

/-- The parts of a numeral hold digits only, and an exponent holds one. -/
structure WellFormed (n : Numeral) : Prop where
  whole : AllDigits n.whole
  fraction : ∀ ds ∈ n.fraction, AllDigits ds
  exponent : ∀ e ∈ n.exponent, AllDigits e.2 ∧ e.2 ≠ []

theorem splitSign_of_head {cs : List Char} (hp : cs.head? ≠ some '+') (hm : cs.head? ≠ some '-') :
    splitSign cs = (none, cs) := by
  unfold splitSign
  split
  · simp at hp
  · simp at hm
  · rfl

theorem splitSign_signText (sign : Option Sign) {cs : List Char} (hp : cs.head? ≠ some '+')
    (hm : cs.head? ≠ some '-') : splitSign (signText sign ++ cs) = (sign, cs) := by
  match sign with
  | none => exact splitSign_of_head hp hm
  | some .plus => rfl
  | some .minus => rfl

/-- Digits, with anything but a sign behind them, do not start with a sign. -/
theorem head?_digits_append {ds cs : List Char} (hd : AllDigits ds) {c : Char}
    (hc : c.isDigit = false) (h : cs.head? ≠ some c) : (ds ++ cs).head? ≠ some c := by
  cases ds with
  | nil => exact h
  | cons d ds =>
    intro he
    simp only [List.cons_append, List.head?_cons, Option.some.injEq] at he
    rw [← he, hd d List.mem_cons_self] at hc
    exact Bool.noConfusion hc

theorem head?_exponentText (e : Option (Option Sign × List Char)) {c : Char} (h : c ≠ 'e') :
    (exponentText e).head? ≠ some c := by
  cases e with
  | none => simp [exponentText]
  | some e => simpa [exponentText] using h.symm

theorem head?_fractionText_append (f : Option (List Char)) {cs : List Char} {c : Char}
    (h : c ≠ '.') (hc : cs.head? ≠ some c) : (fractionText f ++ cs).head? ≠ some c := by
  cases f with
  | none => exact hc
  | some f => simpa [fractionText] using h.symm

theorem noDigitNext_of_head {cs : List Char}
    (h : ∀ c : Char, c.isDigit = true → cs.head? ≠ some c) : NoDigitNext cs := by
  intro c hc
  by_contra hd
  exact h c (by simpa using hd) hc

theorem noDigitNext_exponentText (e : Option (Option Sign × List Char)) :
    NoDigitNext (exponentText e) :=
  noDigitNext_of_head fun c hc => head?_exponentText e (by rintro rfl; simp at hc)

theorem noDigitNext_fractionText_append (f : Option (List Char))
    (e : Option (Option Sign × List Char)) : NoDigitNext (fractionText f ++ exponentText e) :=
  noDigitNext_of_head fun c hc => head?_fractionText_append f (by rintro rfl; simp at hc)
    (head?_exponentText e (by rintro rfl; simp at hc))

theorem readExponent_exponentText {e : Option (Option Sign × List Char)}
    (he : ∀ x ∈ e, AllDigits x.2 ∧ x.2 ≠ []) : readExponent (exponentText e) = some e := by
  match e with
  | none => rfl
  | some (sign, ds) =>
    obtain ⟨hd, hne⟩ := he _ rfl
    have hp : (ds ++ []).head? ≠ some '+' := head?_digits_append hd (by decide) (by simp)
    have hm : (ds ++ []).head? ≠ some '-' := head?_digits_append hd (by decide) (by simp)
    have hsplit := splitDigits_append hd noDigitNext_nil
    rw [List.append_nil] at hp hm hsplit
    simp only [exponentText, readExponent, splitSign_signText sign hp hm, hsplit]
    simp [hne]

/-- A numeral that was put together is taken apart again. -/
theorem read_text {n : Numeral} (h : n.WellFormed) : read n.text = some n := by
  obtain ⟨sign, whole, fraction, exponent⟩ := n
  have hp : (whole ++ (fractionText fraction ++ exponentText exponent)).head? ≠ some '+' :=
    head?_digits_append h.whole (by decide)
      (head?_fractionText_append _ (by decide) (head?_exponentText _ (by decide)))
  have hm : (whole ++ (fractionText fraction ++ exponentText exponent)).head? ≠ some '-' :=
    head?_digits_append h.whole (by decide)
      (head?_fractionText_append _ (by decide) (head?_exponentText _ (by decide)))
  have hexp := readExponent_exponentText h.exponent
  unfold read text
  simp only [splitSign_signText sign hp hm,
    splitDigits_append h.whole (noDigitNext_fractionText_append fraction exponent)]
  match fraction with
  | some ds =>
    simp only [fractionText, List.cons_append,
      splitDigits_append (h.fraction ds rfl) (noDigitNext_exponentText exponent)]
    dsimp only at hexp
    rw [hexp, Option.map_some]
  | none =>
    have hdot := head?_exponentText exponent (c := '.') (by decide)
    simp only [fractionText, List.nil_append]
    dsimp only at hexp
    split
    · next heq =>
      rw [heq] at hdot
      simp at hdot
    · rw [hexp, Option.map_some]

/-! ## Numerals that are written -/

/-- A numeral as JSON has it. -/
structure Written (n : Numeral) : Prop extends n.WellFormed where
  sign : n.sign ≠ some .plus
  whole_ne_nil : n.whole ≠ []
  whole_head : n.whole.head? = some '0' → n.whole = ['0']
  whole_length : n.whole.length ≤ longest
  fraction_ne : n.fraction ≠ some []

theorem Written.admits {n : Numeral} (h : n.Written) : Json.admits n = true := by
  simp only [Json.admits, Bool.and_eq_true, bne_iff_ne, decide_eq_true_eq]
  refine ⟨⟨⟨h.sign, h.fraction_ne⟩, h.whole_length⟩, ?_⟩
  have hhead := h.whole_head
  cases hn : n.whole with
  | nil => exact absurd hn h.whole_ne_nil
  | cons c rest =>
    rw [hn] at hhead
    split
    · next heq => simp at heq
    · next heq =>
      simp only [List.cons.injEq] at heq
      rw [heq.1] at hhead
      have := hhead rfl
      simp only [List.cons.injEq] at this
      rw [← heq.2, this.2]
      rfl
    · rfl

/-- The rank of a numeral's magnitude. -/
def rank (n : Numeral) : Nat :=
  Decimal.rank ⟨digitsValue n.digits, n.scale - (n.fraction.getD []).length⟩

theorem toBinary64_eq (n : Numeral) : n.toBinary64 = Binary64.ofRank n.negative n.rank := by
  rw [toBinary64, Binary64.ofDecimal_eq_ofRank, rank]

end Numeral

namespace Binary64

open Numeral

/-! ## The forms of a decimal -/

/-- Digits as they are left when the zeros at their end are gone: there is one, and no zero is in
    front. -/
structure Significant (ds : List Char) : Prop where
  all : AllDigits ds
  ne_nil : ds ≠ []
  head : ds.head? ≠ some '0'

theorem significant_dropTrailingZeros {n : Nat} (hn : n ≠ 0) :
    Significant (dropTrailingZeros (Nat.toDigits 10 n)) := by
  have hne : dropTrailingZeros (Nat.toDigits 10 n) ≠ [] := by
    intro h0
    have hv := digitsValue_dropTrailingZeros (Nat.toDigits 10 n)
    rw [digitsValue_toDigits, h0] at hv
    simp [digitsValue] at hv
    exact hn hv
  refine ⟨allDigits_dropTrailingZeros (allDigits_toDigits n), hne, ?_⟩
  rw [head?_dropTrailingZeros hne]
  exact head?_toDigits_ne_zero (Nat.pos_of_ne_zero hn)

/-- `0.000ddd`: the point stands before all digits. -/
theorem exists_numeral_below_one {ds : List Char} (hs : Significant ds) (k : Nat) :
    ∃ n : Numeral, n.Written ∧ n.isWhole = false ∧ n.sign = none ∧
      n.text = renderPositional ds (-(k : Int)) ∧
      n.rank = Decimal.rank ⟨digitsValue ds, -(k : Int) - ds.length⟩ := by
  refine ⟨⟨none, ['0'], some (List.replicate k '0' ++ ds), none⟩, ?_, rfl, rfl, ?_, ?_⟩
  · refine ⟨⟨by simp [AllDigits], ?_, by simp⟩, by simp, by simp, fun _ => rfl,
      by simp [longest], by simp [hs.ne_nil]⟩
    rintro _ ⟨⟩
    exact allDigits_append.2 ⟨allDigits_replicate_zero k, hs.all⟩
  · rw [renderPositional, if_pos (by omega)]
    simp [text, signText, fractionText, exponentText]
  · have hv : digitsValue (['0'] ++ (List.replicate k '0' ++ ds)) = digitsValue ds := by
      rw [List.singleton_append, digitsValue_cons_zero, digitsValue_append,
        digitsValue_replicate_zero, Nat.zero_mul, Nat.zero_add]
    simp only [rank, digits, Option.getD_some, hv, scale, List.length_append,
      List.length_replicate]
    congr 2
    omega

/-- `ddd000.0`: the point stands behind all digits. -/
theorem exists_numeral_whole {ds : List Char} (hs : Significant ds) {point : Nat}
    (hle : ds.length ≤ point) (hmax : point ≤ 16) :
    ∃ n : Numeral, n.Written ∧ n.isWhole = false ∧ n.sign = none ∧
      n.text = renderPositional ds (point : Int) ∧
      n.rank = Decimal.rank ⟨digitsValue ds, (point : Int) - ds.length⟩ := by
  have hpos : 0 < ds.length := List.length_pos_iff.2 hs.ne_nil
  have hwhole : ds ++ List.replicate (point - ds.length) '0' ≠ [] := by simp [hs.ne_nil]
  refine ⟨⟨none, ds ++ List.replicate (point - ds.length) '0', some ['0'], none⟩,
    ?_, rfl, rfl, ?_, ?_⟩
  · refine ⟨⟨allDigits_append.2 ⟨hs.all, allDigits_replicate_zero _⟩, by simp [AllDigits],
      by simp⟩, by simp, hwhole, ?_, ?_, by simp⟩
    · rw [List.head?_append_of_ne_nil _ hs.ne_nil]
      exact fun h => absurd h hs.head
    · simp only [List.length_append, List.length_replicate, longest]
      omega
  · rw [renderPositional, if_neg (by omega)]
    dsimp only
    rw [Int.toNat_natCast, List.take_of_length_le hle, List.drop_of_length_le hle]
    simp [text, signText, fractionText, exponentText]
  · have hv : digitsValue ((ds ++ List.replicate (point - ds.length) '0') ++ ['0']) =
        digitsValue ds * 10 ^ (point - ds.length + 1) := by
      rw [List.append_assoc, digitsValue_append]
      rw [← List.replicate_succ', digitsValue_replicate_zero, List.length_replicate, Nat.add_zero]
    simp only [rank, digits, Option.getD_some, hv, scale, List.length_singleton]
    rw [Decimal.rank_shift]
    congr 2
    omega

/-- `dd.ddd`: the point stands among the digits. -/
theorem exists_numeral_among {ds : List Char} (hs : Significant ds) {point : Nat}
    (hpos : 0 < point) (hlt : point < ds.length) (hmax : point ≤ 16) :
    ∃ n : Numeral, n.Written ∧ n.isWhole = false ∧ n.sign = none ∧
      n.text = renderPositional ds (point : Int) ∧
      n.rank = Decimal.rank ⟨digitsValue ds, (point : Int) - ds.length⟩ := by
  have hall : AllDigits (ds.take point) ∧ AllDigits (ds.drop point) := by
    rw [← allDigits_append, List.take_append_drop]
    exact hs.all
  have hdrop : ds.drop point ≠ [] := by
    rw [Ne, List.drop_eq_nil_iff]
    omega
  have hwhole : ds.take point ≠ [] := by
    rw [← List.length_pos_iff, List.length_take]
    omega
  have hhead : (ds.take point).head? = ds.head? := by
    rw [List.head?_take, if_neg (by omega)]
  refine ⟨⟨none, ds.take point, some (ds.drop point), none⟩, ?_, rfl, rfl, ?_, ?_⟩
  · refine ⟨⟨hall.1, ?_, by simp⟩, by simp, hwhole, ?_, ?_, by simpa using hdrop⟩
    · rintro _ ⟨⟩
      exact hall.2
    · rw [hhead]
      exact fun h => absurd h hs.head
    · simp only [List.length_take, longest]
      omega
  · rw [renderPositional, if_neg (by omega)]
    dsimp only
    rw [Int.toNat_natCast, Nat.sub_eq_zero_of_le (by omega)]
    simp [text, signText, fractionText, exponentText, hdrop]
  · simp only [rank, digits, Option.getD_some, List.take_append_drop, scale, List.length_drop]
    congr 2
    omega

theorem renderExponent_eq (e : Int) :
    renderExponent e = exponentText (some (some (if e < 0 then .minus else .plus),
      Nat.toDigits 10 e.natAbs)) := by
  unfold renderExponent exponentText
  split_ifs <;> rfl

/-- `d.ddde+eee`: the point stands after the first digit. -/
theorem exists_numeral_scientific {ds : List Char} (hs : Significant ds) (e : Int) :
    ∃ n : Numeral, n.Written ∧ n.isWhole = false ∧ n.sign = none ∧
      n.text = renderScientific ds e ∧
      n.rank = Decimal.rank ⟨digitsValue ds, e + 1 - ds.length⟩ := by
  obtain ⟨d, rest, rfl⟩ := List.exists_cons_of_ne_nil hs.ne_nil
  have hall := allDigits_cons.1 hs.all
  have hone : d ≠ '0' := by simpa using hs.head
  have hexp : ∀ x ∈ some (some (if e < 0 then Sign.minus else .plus), Nat.toDigits 10 e.natAbs),
      AllDigits x.2 ∧ x.2 ≠ [] := by
    rintro _ ⟨⟩
    exact ⟨allDigits_toDigits _, Nat.toDigits_ne_nil⟩
  have hscale : ∀ f, scale ⟨none, [d], f, some (some (if e < 0 then .minus else .plus),
      Nat.toDigits 10 e.natAbs)⟩ = e := by
    intro f
    simp only [scale, digitsValue_toDigits]
    by_cases he : e < 0
    · rw [if_pos he, if_pos rfl]
      omega
    · rw [if_neg he, if_neg (by simp)]
      omega
  refine ⟨⟨none, [d], if rest = [] then none else some rest,
    some (some (if e < 0 then .minus else .plus), Nat.toDigits 10 e.natAbs)⟩,
    ?_, by simp [isWhole], rfl, ?_, ?_⟩
  · refine ⟨⟨by simpa [AllDigits] using hall.1, ?_, hexp⟩, by simp, by simp, by simp [hone],
      by simp [longest], by simp⟩
    by_cases hr : rest = []
    · simp [hr]
    · simpa [hr] using hall.2
  · by_cases hr : rest = []
    · subst hr
      simp [text, signText, fractionText, renderScientific, renderExponent_eq]
    · obtain ⟨c, cs, rfl⟩ := List.exists_cons_of_ne_nil hr
      simp [text, signText, fractionText, renderScientific, renderExponent_eq]
  · unfold rank digits
    rw [hscale]
    by_cases hr : rest = []
    · subst hr
      simp
    · simp only [if_neg hr, Option.getD_some, List.singleton_append, List.length_cons]
      congr 2
      omega

/-! ## Doubles -/

theorem exists_numeral_renderDecimal {d : Decimal} (hd : d.digits ≠ 0) :
    ∃ n : Numeral, n.Written ∧ n.isWhole = false ∧ n.sign = none ∧
      n.text = renderDecimal d ∧ n.rank = d.rank := by
  have hs := significant_dropTrailingZeros hd
  have hlen := length_dropTrailingZeros_le (Nat.toDigits 10 d.digits)
  have hv := digitsValue_dropTrailingZeros (Nat.toDigits 10 d.digits)
  rw [digitsValue_toDigits] at hv
  unfold renderDecimal
  dsimp only
  generalize hall : Nat.toDigits 10 d.digits = all at hs hlen hv ⊢
  generalize dropTrailingZeros all = ds at hs hlen hv ⊢
  -- every form has the value of the digits, shifted by the zeros that were dropped
  have hrank : d.rank = Decimal.rank ⟨digitsValue ds, d.exponent + all.length - ds.length⟩ := by
    have heta : d = ⟨digitsValue ds * 10 ^ (all.length - ds.length), d.exponent⟩ := by rw [← hv]
    rw [heta, Decimal.rank_shift]
    dsimp only
    congr 2
    omega
  rw [hrank]
  generalize d.exponent + (all.length : Int) = point
  by_cases hform : leastPositional ≤ point - 1 ∧ point - 1 ≤ greatestPositional
  · rw [if_pos hform]
    have hmax : point ≤ 16 := by
      have := hform.2
      unfold greatestPositional at this
      omega
    rcases Int.lt_or_le 0 point with hpos | hneg
    · obtain ⟨p, rfl⟩ := Int.eq_ofNat_of_zero_le (Int.le_of_lt hpos)
      rcases Nat.lt_or_ge p ds.length with hlt | hge
      · exact exists_numeral_among hs (by omega) hlt (by omega)
      · exact exists_numeral_whole hs hge (by omega)
    · obtain ⟨k, hk⟩ := Int.eq_ofNat_of_zero_le (Int.neg_nonneg_of_nonpos hneg)
      have hpoint : point = -(k : Int) := by omega
      rw [hpoint]
      exact exists_numeral_below_one hs k
  · rw [if_neg hform]
    have hsci := exists_numeral_scientific hs (point - 1)
    rwa [Int.sub_add_cancel] at hsci

theorem exists_numeral_renderMagnitude (r : Magnitude) :
    ∃ n : Numeral, n.Written ∧ n.isWhole = false ∧ n.sign = none ∧
      n.text = renderMagnitude r ∧ n.rank = r.val := by
  unfold renderMagnitude
  by_cases hr : r.val = 0
  · rw [if_pos hr]
    refine ⟨⟨none, ['0'], some ['0'], none⟩, ?_, rfl, rfl, rfl, ?_⟩
    · exact ⟨⟨by simp [AllDigits], by simp [AllDigits], by simp⟩, by simp, by simp,
        fun _ => rfl, by simp [longest], by simp⟩
    · rw [hr]
      exact Decimal.rank_zero _
  · rw [if_neg hr]
    have h := exists_numeral_renderDecimal (Decimal.digits_shortest_ne_zero hr)
    rwa [Decimal.rank_shortest] at h

/-- The text of a finite double is that of a numeral that is read as the same double. -/
theorem exists_numeral_render (negative : Bool) (r : Magnitude) :
    ∃ n : Numeral, n.Written ∧ n.isWhole = false ∧
      render? (.finite negative r) = some n.text ∧ n.toBinary64 = .finite negative r := by
  obtain ⟨n, hn, hwhole, hsign, htext, hrank⟩ := exists_numeral_renderMagnitude r
  cases negative with
  | false =>
    refine ⟨n, hn, hwhole, by rw [render?, htext]; rfl, ?_⟩
    have hneg : n.negative = false := by simp [Numeral.negative, hsign]
    rw [toBinary64_eq, hneg, hrank, ofRank_val]
  | true =>
    refine ⟨{ n with sign := some .minus }, ?_, hwhole, ?_, ?_⟩
    · exact ⟨⟨hn.whole, hn.fraction, hn.exponent⟩, by simp, hn.whole_ne_nil, hn.whole_head,
        hn.whole_length, hn.fraction_ne⟩
    · rw [render?, ← htext]
      simp [text, signText, hsign]
    · have hsame : rank { n with sign := some .minus } = r.val := hrank
      rw [toBinary64_eq, hsame, ofRank_val]
      rfl

end Binary64

end SplitTest
