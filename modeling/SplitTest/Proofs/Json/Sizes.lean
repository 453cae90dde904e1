import Mathlib
import SplitTest.Json.Document
import SplitTest.Proofs.Json.Scan

/-
  The numbers of a parsed value are not too long.
  A numeral is only admitted with a bounded number of digits, so every token is `Sized`; the reader
  puts nothing into a value but tokens, so the value is `Sized` as well (`sized_of_parse`).
-/

namespace SplitTest.Json

/-- No number in a value is too long. -/
inductive Sized : Json → Prop
  | scalar {s : Scalar} (h : s.Sized) : Sized (.scalar s)
  | array {items : List Json} (h : ∀ j ∈ items, Sized j) : Sized (.array items)
  | object {fields : List (String × Json)} (h : ∀ f ∈ fields, Sized f.2) :
      Sized (.object fields)

/-! ## Tokens -/

/-- No number in a token is too long. -/
def Token.Sized : Token → Prop
  | .scalar s => s.Sized
  | _ => True

theorem allDigits_whole_of_read {cs : List Char} {n : Numeral} (h : Numeral.read cs = some n) :
    AllDigits n.whole := by
  have hdigits := allDigits_splitDigits (splitSign cs).2
  unfold Numeral.read at h
  dsimp only at h
  split at h
  all_goals
    obtain ⟨e, -, rfl⟩ := Option.map_eq_some_iff.1 h
    exact hdigits

theorem sized_ofNumeral {n : Numeral} (hdigits : AllDigits n.whole) (h : admits n = true) :
    (ofNumeral n).Sized := by
  have hlen : n.whole.length ≤ Numeral.longest := by
    simp only [admits, Bool.and_eq_true, decide_eq_true_eq] at h
    exact h.1.2
  unfold ofNumeral
  split_ifs
  · have habs : n.toInt.natAbs = digitsValue n.whole := by
      unfold Numeral.toInt
      split_ifs <;> omega
    change n.toInt.natAbs < 10 ^ Numeral.longest
    rw [habs]
    exact (digitsValue_lt hdigits).trans_le (Nat.pow_le_pow_right (by decide) hlen)
  · trivial

theorem sized_of_ofRun {run : List Char} {s : Scalar} (h : ofRun run = some s) : s.Sized := by
  unfold ofRun at h
  split_ifs at h
  iterate 6
    · cases h
      trivial
  split at h
  · next n hread =>
    split_ifs at h with hadmits
    cases h
    exact sized_ofNumeral (allDigits_whole_of_read hread) hadmits
  · cases h

theorem sized_stepOutside (c : Char) : ∀ t ∈ (stepOutside c).2, t.Sized := by
  intro t ht
  unfold stepOutside at ht
  split_ifs at ht
  · simp at ht
  · simp at ht
  · split at ht
    · next mark hmark =>
      rw [List.mem_singleton.1 ht]
      unfold punctuation at hmark
      split at hmark <;> cases hmark <;> trivial
    · simp at ht

/-- One character completes no token with a number that is too long. -/
theorem sized_step {mode next : Mode} {c : Char} {ts : List Token}
    (h : step mode c = some (next, ts)) : ∀ t ∈ ts, t.Sized := by
  cases mode with
  | outside =>
    have hts : (stepOutside c).2 = ts := congrArg Prod.snd (Option.some.inj h)
    rw [← hts]
    exact sized_stepOutside c
  | run reversed =>
    rw [step] at h
    split_ifs at h
    · obtain ⟨s, hs, heq⟩ := Option.map_eq_some_iff.1 h
      have hts : .scalar s :: (stepOutside c).2 = ts := congrArg Prod.snd heq
      rw [← hts]
      intro t ht
      rcases List.mem_cons.1 ht with rfl | ht
      · exact sized_of_ofRun hs
      · exact sized_stepOutside c t ht
    · cases h
      simp
  | text reversed =>
    rw [step] at h
    split_ifs at h <;> cases h
    · intro t ht
      rw [List.mem_singleton.1 ht]
      trivial
    · simp
    · simp
  | escape reversed =>
    rw [step] at h
    split_ifs at h
    · cases h
      simp
    · obtain ⟨e, -, heq⟩ := Option.map_eq_some_iff.1 h
      cases heq
      simp
  | unit reversed high missing value =>
    rw [step] at h
    split at h
    · cases h
    · split at h
      · obtain ⟨e, -, heq⟩ := Option.map_eq_some_iff.1 h
        cases heq
        simp
      · cases h
        simp
  | pair reversed high =>
    rw [step] at h
    split_ifs at h
    cases h
    simp
  | pairMark reversed high =>
    rw [step] at h
    split_ifs at h
    cases h
    simp

theorem sized_finish {mode : Mode} {ts : List Token} (h : finish mode = some ts) :
    ∀ t ∈ ts, t.Sized := by
  unfold finish at h
  split at h
  · cases h
    simp
  · obtain ⟨s, hs, rfl⟩ := Option.map_eq_some_iff.1 h
    intro t ht
    rw [List.mem_singleton.1 ht]
    exact sized_of_ofRun hs
  · cases h

theorem sized_scanFrom {mode : Mode} {found ts : List Token} {cs : List Char}
    (hfound : ∀ t ∈ found, t.Sized) (h : scanFrom mode found cs = some ts) :
    ∀ t ∈ ts, t.Sized := by
  induction cs generalizing mode found with
  | nil =>
    rw [scanFrom] at h
    obtain ⟨last, hlast, rfl⟩ := Option.map_eq_some_iff.1 h
    intro t ht
    rcases List.mem_append.1 ht with ht | ht
    · exact hfound t (List.mem_reverse.1 ht)
    · exact sized_finish hlast t ht
  | cons c cs ih =>
    rw [scanFrom] at h
    split at h
    · next next tokens hstep =>
      refine ih (fun t ht => ?_) h
      rcases List.mem_append.1 ht with ht | ht
      · exact sized_step hstep t (List.mem_reverse.1 ht)
      · exact hfound t ht
    · cases h

/-! ## Values -/

/-- No number in an open container is too long. -/
def Frame.Sized : Frame → Prop
  | .array reversed => ∀ j ∈ reversed, j.Sized
  | .object reversed _ => ∀ f ∈ reversed, f.2.Sized

/-- No number in a state is too long. -/
def State.Sized : State → Prop
  | .value stack => ∀ f ∈ stack, f.Sized
  | .firstItem stack => ∀ f ∈ stack, f.Sized
  | .nextItem reversed stack => (∀ j ∈ reversed, j.Sized) ∧ ∀ f ∈ stack, f.Sized
  | .firstName stack => ∀ f ∈ stack, f.Sized
  | .name reversed stack => (∀ f ∈ reversed, f.2.Sized) ∧ ∀ f ∈ stack, f.Sized
  | .colon reversed _ stack => (∀ f ∈ reversed, f.2.Sized) ∧ ∀ f ∈ stack, f.Sized
  | .nextField reversed stack => (∀ f ∈ reversed, f.2.Sized) ∧ ∀ f ∈ stack, f.Sized
  | .complete v => v.Sized

theorem sized_deliver {v : Json} {stack : List Frame} (hv : v.Sized)
    (h : ∀ f ∈ stack, f.Sized) : (deliver v stack).Sized := by
  match stack, h with
  | [], _ => exact hv
  | .array reversed :: stack, h =>
    rw [List.forall_mem_cons] at h
    exact ⟨List.forall_mem_cons.2 ⟨hv, h.1⟩, h.2⟩
  | .object reversed name :: stack, h =>
    rw [List.forall_mem_cons] at h
    exact ⟨List.forall_mem_cons.2 ⟨hv, h.1⟩, h.2⟩

theorem sized_begin {stack : List Frame} {t : Token} {next : State} (ht : t.Sized)
    (h : ∀ f ∈ stack, f.Sized) (hnext : begin stack t = some next) : next.Sized := by
  unfold begin at hnext
  split at hnext <;> cases hnext
  · exact h
  · exact h
  · exact sized_deliver (.scalar ht) h

/-- One token keeps every number in the state short enough. -/
theorem sized_advance {state next : State} {t : Token} (hs : state.Sized) (ht : t.Sized)
    (h : advance state t = some next) : next.Sized := by
  have hempty : ∀ stack : List Frame, (∀ f ∈ stack, f.Sized) →
      ∀ f ∈ Frame.array [] :: stack, f.Sized := fun stack hstack =>
    List.forall_mem_cons.2 ⟨fun j hj => absurd hj List.not_mem_nil, hstack⟩
  unfold advance at h
  split at h
  · exact sized_begin ht hs h
  · cases h
    exact sized_deliver (.array fun j hj => absurd hj List.not_mem_nil) hs
  · split_ifs at h
    exact sized_begin ht (hempty _ hs) h
  · cases h
    exact List.forall_mem_cons.2 ⟨hs.1, hs.2⟩
  · cases h
    exact sized_deliver (.array fun j hj => hs.1 j (List.mem_reverse.1 hj)) hs.2
  · cases h
    exact sized_deliver (.object fun f hf => absurd hf List.not_mem_nil) hs
  · split_ifs at h
    cases h
    exact ⟨fun f hf => absurd hf List.not_mem_nil, hs⟩
  · cases h
    exact hs
  · cases h
    exact List.forall_mem_cons.2 ⟨hs.1, hs.2⟩
  · cases h
    exact hs
  · cases h
    exact sized_deliver (.object fun f hf => hs.1 f (List.mem_reverse.1 hf)) hs.2
  · cases h

theorem sized_advanceAll {state last : State} {ts : List Token} (hs : state.Sized)
    (hts : ∀ t ∈ ts, t.Sized) (h : advanceAll state ts = some last) : last.Sized := by
  induction ts generalizing state with
  | nil =>
    cases h
    exact hs
  | cons t ts ih =>
    rw [List.forall_mem_cons] at hts
    obtain ⟨next, hnext, hrest⟩ := Option.bind_eq_some_iff.1 h
    exact ih (sized_advance hs hts.1 hnext) hts.2 hrest

/-- A text with too long a number is not parsed. -/
theorem sized_of_parse {cs : List Char} {j : Json} (h : parse cs = some j) : j.Sized := by
  obtain ⟨ts, hscan, hread⟩ := Option.bind_eq_some_iff.1 h
  have hts : ∀ t ∈ ts, t.Sized := sized_scanFrom (fun t ht => absurd ht List.not_mem_nil) hscan
  unfold ofTokens? at hread
  split at hread
  · next value hall =>
    cases hread
    have hstart : (State.value []).Sized := fun f hf => absurd hf List.not_mem_nil
    exact sized_advanceAll hstart hts hall
  · cases hread

end SplitTest.Json
