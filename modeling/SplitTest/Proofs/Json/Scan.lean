import Mathlib
import SplitTest.Json.Printer
import SplitTest.Json.Token
import SplitTest.Proofs.Number.Notation

/-
  The text of a scalar is one token.
  `ScansTo` says that a text gives certain tokens whatever was found before it and whatever ends a
  run behind it. It holds for a word, a numeral, a string (`scansTo_renderText`) and so for every
  scalar with a number that is not too long (`scansTo_renderScalar`).
-/

namespace SplitTest

/-- A number has no more digits than a text may have. -/
def Scalar.Sized : Scalar → Prop
  | .int n => n.natAbs < 10 ^ Numeral.longest
  | _ => True

/-- What is left of a scalar when it is written: there is no text for NaN and the infinities. -/
def Scalar.written : Scalar → Scalar
  | .float .nan => .null
  | .float (.infinite _) => .null
  | s => s

namespace Json

/-! ## Texts and their tokens -/

/-- Behind a text there is nothing, or a character that ends a run. -/
def RunEnds (rest : List Char) : Prop := ∀ c ∈ rest.head?, endsRun c = true

/-- A text gives certain tokens and leaves nothing open. -/
def ScansTo (cs : List Char) (ts : List Token) : Prop :=
  ∀ found rest, RunEnds rest →
    scanFrom .outside found (cs ++ rest) = scanFrom .outside (ts.reverse ++ found) rest

theorem runEnds_nil : RunEnds [] := by
  intro c hc
  simp at hc

theorem runEnds_cons {c : Char} {cs : List Char} (h : endsRun c = true) : RunEnds (c :: cs) := by
  intro d hd
  simp only [List.head?_cons, Option.mem_def, Option.some.injEq] at hd
  rw [← hd]
  exact h

theorem runEnds_append {cs rest : List Char} (hne : cs ≠ []) (h : RunEnds cs) :
    RunEnds (cs ++ rest) := by
  intro c hc
  rw [List.head?_append_of_ne_nil _ hne] at hc
  exact h c hc

/-- The whole of a text gives its tokens. -/
theorem ScansTo.scan {cs : List Char} {ts : List Token} (h : ScansTo cs ts) :
    scan cs = some ts := by
  have h0 := h [] [] runEnds_nil
  rw [List.append_nil] at h0
  rw [Json.scan, h0, scanFrom, finish]
  simp

theorem ScansTo.append {as bs : List Char} {tas tbs : List Token} (ha : ScansTo as tas)
    (hb : ScansTo bs tbs) (hne : bs ≠ []) (hends : RunEnds bs) :
    ScansTo (as ++ bs) (tas ++ tbs) := by
  intro found rest hr
  rw [List.append_assoc, ha _ _ (runEnds_append hne hends), hb _ _ hr, List.reverse_append,
    List.append_assoc]

theorem punctuation_ne_gap {c : Char} {t : Token} (h : punctuation c = some t) :
    isGap c = false ∧ c ≠ '"' := by
  unfold punctuation at h
  split at h <;> first | decide | cases h

/-- A punctuation mark is a token of its own. -/
theorem ScansTo.mark {c : Char} {t : Token} {cs : List Char} {ts : List Token}
    (hc : punctuation c = some t) (h : ScansTo cs ts) : ScansTo (c :: cs) (t :: ts) := by
  intro found rest hr
  obtain ⟨hgap, hquote⟩ := punctuation_ne_gap hc
  have hstep : step .outside c = some (.outside, [t]) := by
    simp [step, stepOutside, hgap, hquote, hc]
  simp only [List.cons_append, scanFrom, hstep]
  rw [h _ _ hr]
  simp

theorem scansTo_nil : ScansTo [] [] := fun _ _ _ => rfl

theorem scansTo_mark {c : Char} {t : Token} (hc : punctuation c = some t) : ScansTo [c] [t] :=
  scansTo_nil.mark hc

/-! ## Runs -/

/-- Inside a run, characters are kept until one of them ends it. -/
theorem scanFrom_run {cs : List Char} (h : ∀ c ∈ cs, endsRun c = false) (reversed : List Char)
    (found : List Token) (rest : List Char) :
    scanFrom (.run reversed) found (cs ++ rest) =
      scanFrom (.run (cs.reverse ++ reversed)) found rest := by
  induction cs generalizing reversed with
  | nil => rfl
  | cons c cs ih =>
    have hc := h c List.mem_cons_self
    have hcs := fun d hd => h d (List.mem_cons_of_mem c hd)
    simp only [List.cons_append, scanFrom, step, hc]
    simp only [Bool.false_eq_true, if_false, List.reverse_nil, List.nil_append]
    rw [ih hcs, List.reverse_cons, List.append_assoc, List.singleton_append]

/-- The end of a run gives its value, and what ends it is read as if it stood alone. -/
theorem scanFrom_run_end {reversed : List Char} {s : Scalar} (hs : ofRun reversed.reverse = some s)
    {rest : List Char} (hr : RunEnds rest) (found : List Token) :
    scanFrom (.run reversed) found rest = scanFrom .outside (.scalar s :: found) rest := by
  cases rest with
  | nil => simp [scanFrom, finish, hs]
  | cons c rest =>
    have hc := hr c rfl
    simp [scanFrom, step, hc, hs]

theorem scansTo_run {c : Char} {cs : List Char} {s : Scalar}
    (h : ∀ d ∈ c :: cs, endsRun d = false) (hs : ofRun (c :: cs) = some s) :
    ScansTo (c :: cs) [.scalar s] := by
  intro found rest hr
  have hc := h c List.mem_cons_self
  have hcs := fun d hd => h d (List.mem_cons_of_mem c hd)
  have hfirst : step .outside c = some (.run [c], []) := by
    simp only [endsRun, Bool.or_eq_false_iff, beq_eq_false_iff_ne, Option.isSome_eq_false_iff,
      Option.isNone_iff_eq_none] at hc
    simp [step, stepOutside, hc.1.1, hc.1.2, hc.2]
  simp only [List.cons_append, scanFrom, hfirst, List.reverse_nil, List.nil_append]
  rw [scanFrom_run hcs, scanFrom_run_end (by simpa using hs) hr]
  rfl

/-! ## Numerals -/

theorem endsRun_of_isDigit {c : Char} (h : c.isDigit = true) : endsRun c = false := by
  have hne : ∀ d : Char, d.isDigit = false → c ≠ d := by
    rintro d hd rfl
    rw [h] at hd
    exact Bool.noConfusion hd
  have hmark : punctuation c = none := by
    unfold punctuation
    split <;> first | rfl | exact absurd h (by decide)
  simp [endsRun, isGap, hmark, hne ' ' rfl, hne '\t' rfl, hne '\n' rfl, hne '\r' rfl, hne '"' rfl]

theorem endsRun_of_mem_sign {sign : Option Sign} {c : Char} (h : c ∈ Numeral.signText sign) :
    endsRun c = false := by
  match sign, h with
  | some .plus, h =>
    rw [List.mem_singleton.1 h]
    rfl
  | some .minus, h =>
    rw [List.mem_singleton.1 h]
    rfl

/-- No character of a numeral ends a run. -/
theorem endsRun_of_mem_text {n : Numeral} (h : n.WellFormed) {c : Char} (hc : c ∈ n.text) :
    endsRun c = false := by
  obtain ⟨sign, whole, fraction, exponent⟩ := n
  simp only [Numeral.text, List.mem_append] at hc
  rcases hc with hc | hc | hc | hc
  · exact endsRun_of_mem_sign hc
  · exact endsRun_of_isDigit (h.whole c hc)
  · cases fraction with
    | none => cases hc
    | some ds =>
      rcases List.mem_cons.1 hc with rfl | hc
      · rfl
      · exact endsRun_of_isDigit (h.fraction ds rfl c hc)
  · cases exponent with
    | none => cases hc
    | some parts =>
      obtain ⟨sign, ds⟩ := parts
      rcases List.mem_cons.1 hc with rfl | hc
      · rfl
      · rcases List.mem_append.1 hc with hc | hc
        · exact endsRun_of_mem_sign hc
        · exact endsRun_of_isDigit ((h.exponent _ rfl).1 c hc)

theorem ofRun_text {n : Numeral} (h : n.Written) : ofRun n.text = some (ofNumeral n) := by
  have hread := Numeral.read_text h.toWellFormed
  have hne : ∀ word, Numeral.read word = none → n.text ≠ word := by
    intro word hw heq
    rw [← heq, hread] at hw
    cases hw
  unfold ofRun
  rw [if_neg (hne _ rfl), if_neg (hne _ rfl), if_neg (hne _ rfl), if_neg (hne _ rfl),
    if_neg (hne _ rfl), if_neg (hne _ rfl), hread]
  exact if_pos h.admits

theorem text_ne_nil {n : Numeral} (h : n.Written) : n.text ≠ [] := by
  simp [Numeral.text, h.whole_ne_nil]

theorem scansTo_text {n : Numeral} (h : n.Written) :
    ScansTo n.text [.scalar (ofNumeral n)] := by
  have hrun := ofRun_text h
  have hends := fun c => endsRun_of_mem_text (c := c) h.toWellFormed
  obtain ⟨c, cs, hcs⟩ := List.exists_cons_of_ne_nil (text_ne_nil h)
  rw [hcs] at hrun hends ⊢
  exact scansTo_run hends hrun

/-- A whole number is written as a numeral that JSON has. -/
theorem exists_numeral_renderInt {n : Int} (h : n.natAbs < 10 ^ Numeral.longest) :
    ∃ m : Numeral, m.Written ∧ m.text = renderInt n ∧ ofNumeral m = .int n := by
  refine ⟨⟨if n < 0 then some .minus else none, Nat.toDigits 10 n.natAbs, none, none⟩,
    ?_, ?_, ?_⟩
  · refine ⟨⟨allDigits_toDigits _, by simp, by simp⟩, ?_, Nat.toDigits_ne_nil, ?_, ?_, by simp⟩
    · dsimp only
      split_ifs <;> simp
    · intro hzero
      rcases Nat.eq_zero_or_pos n.natAbs with h0 | hpos
      · simp [h0]
      · exact absurd hzero (head?_toDigits_ne_zero hpos)
    · exact (Nat.length_toDigits_le_iff (by decide) (by decide)).2 h
  · unfold Numeral.text renderInt
    split_ifs <;> simp [Numeral.signText, Numeral.fractionText, Numeral.exponentText]
  · simp only [ofNumeral, Numeral.isWhole, Numeral.toInt, Numeral.negative,
      digitsValue_toDigits, Option.isNone_none, Bool.and_self, if_true]
    congr 1
    by_cases hn : n < 0
    · simp only [if_pos hn, decide_true, if_true]
      omega
    · simp only [if_neg hn, reduceCtorEq, decide_false, Bool.false_eq_true, if_false]
      omega

theorem scansTo_renderInt {n : Int} (h : n.natAbs < 10 ^ Numeral.longest) :
    ScansTo (renderInt n) [.scalar (.int n)] := by
  obtain ⟨m, hm, htext, hvalue⟩ := exists_numeral_renderInt h
  rw [← htext, ← hvalue]
  exact scansTo_text hm

/-! ## Words -/

theorem scansTo_nullText : ScansTo nullText [.scalar .null] :=
  scansTo_run (by simp [endsRun, isGap, punctuation]) rfl

theorem scansTo_float (x : Binary64) :
    ScansTo (renderScalar (.float x)) [.scalar (Scalar.written (.float x))] := by
  match x with
  | .nan => exact scansTo_nullText
  | .infinite _ => exact scansTo_nullText
  | .finite negative r =>
    obtain ⟨n, hn, hwhole, htext, hvalue⟩ := Binary64.exists_numeral_render negative r
    have hof : ofNumeral n = .float (.finite negative r) := by
      simp [ofNumeral, hwhole, hvalue]
    have hscan := scansTo_text hn
    rw [hof] at hscan
    rw [renderScalar, htext]
    exact hscan

/-! ## Strings -/

theorem hexDigit_hexChar {n : Nat} (h : n < 16) : hexDigit (hexChar n) = some n := by
  interval_cases n <;> rfl

/-- A control character is read back from its code unit. -/
theorem scanFrom_control {c : Char} (h : c.toNat < 0x20) (reversed : List Char)
    (found : List Token) (rest : List Char) :
    scanFrom (.text reversed) found
        ('\\' :: 'u' :: '0' :: '0' :: hexChar (c.toNat / 16) :: hexChar (c.toNat % 16) :: rest) =
      scanFrom (.text (c :: reversed)) found rest := by
  have hhigh := hexDigit_hexChar (n := c.toNat / 16) (by omega)
  have hlow := hexDigit_hexChar (n := c.toNat % 16) (by omega)
  have hzero : hexDigit '0' = some 0 := rfl
  have hclose : closeUnit reversed none (c.toNat / 16 * 16 + c.toNat % 16) =
      some (.text (c :: reversed)) := by
    rw [Nat.div_add_mod', closeUnit, if_neg (by omega), if_neg (by omega), Char.ofNat_toNat]
  simp [scanFrom, step, hzero, hhigh, hlow, hclose]

/-- A character of a string is read back from its escape. -/
theorem scanFrom_escapeChar (c : Char) (reversed : List Char) (found : List Token)
    (rest : List Char) :
    scanFrom (.text reversed) found (escapeChar c ++ rest) =
      scanFrom (.text (c :: reversed)) found rest := by
  unfold escapeChar
  split
  · rfl
  · rfl
  · rfl
  · rfl
  · rfl
  · rfl
  · rfl
  · next hquote hslash _ _ _ _ _ =>
    by_cases hc : c.toNat < 0x20
    · rw [if_pos hc]
      exact scanFrom_control hc reversed found rest
    · have hstep : step (.text reversed) c = some (.text (c :: reversed), []) := by
        rw [step, if_neg hquote, if_neg hslash, if_neg hc]
      rw [if_neg hc, List.singleton_append, scanFrom, hstep]
      rfl

theorem scanFrom_escapes (cs reversed : List Char) (found : List Token) (rest : List Char) :
    scanFrom (.text reversed) found (cs.flatMap escapeChar ++ rest) =
      scanFrom (.text (cs.reverse ++ reversed)) found rest := by
  induction cs generalizing reversed with
  | nil => rfl
  | cons c cs ih =>
    rw [List.flatMap_cons, List.append_assoc, scanFrom_escapeChar, ih, List.reverse_cons,
      List.append_assoc, List.singleton_append]

theorem scansTo_renderText (s : String) : ScansTo (renderText s) [.scalar (.text s)] := by
  intro found rest _
  have hopen : step .outside '"' = some (.text [], []) := rfl
  simp only [renderText, List.cons_append, scanFrom, hopen, List.reverse_nil, List.nil_append,
    List.append_assoc]
  rw [scanFrom_escapes]
  simp [scanFrom, step, String.ofList_toList]

/-! ## Scalars -/

/-- The text of a scalar is one token: the scalar, as far as it can be written. -/
theorem scansTo_renderScalar {s : Scalar} (h : s.Sized) :
    ScansTo (renderScalar s) [.scalar s.written] := by
  match s with
  | .null => exact scansTo_nullText
  | .bool true => exact scansTo_run (by simp [endsRun, isGap, punctuation]) rfl
  | .bool false => exact scansTo_run (by simp [endsRun, isGap, punctuation]) rfl
  | .int n => exact scansTo_renderInt h
  | .float x => exact scansTo_float x
  | .text s => exact scansTo_renderText s

end Json

end SplitTest
