import Mathlib
import SplitTest.Proofs.Allocation.Walk
import SplitTest.Seed

/-
  How the digests split among the variants of an experiment.
  A digest takes part in an allocation with its first four bytes, its head. Of the 2^32 heads,
  `bucketHeads b` lead to bucket `b`: 42949672 to 42949674 of them, since 2^31 leaves 48 modulo
  100 and the absolute value folds the negative words onto the others (`card_bucketHeads`). A
  variant owns `sliceSize` buckets, so the heads that lead to its position are that many times as
  many (`traffic_follows_split`).
-/

namespace SplitTest

open Finset

/-! ## Heads -/

/-- The first four bytes of a digest. -/
structure Head where
  b0 : UInt8
  b1 : UInt8
  b2 : UInt8
  b3 : UInt8
  deriving DecidableEq

namespace Head

/-- The bytes of a head. -/
def bytes (h : Head) : List UInt8 := [h.b0, h.b1, h.b2, h.b3]

/-- The number that a head spells. -/
def word (h : Head) : Nat := Bucket.wordOf h.b0 h.b1 h.b2 h.b3

/-- The head that spells a number. -/
def ofWord (n : Nat) : Head where
  b0 := UInt8.ofNat n
  b1 := UInt8.ofNat (n / 256)
  b2 := UInt8.ofNat (n / 65536)
  b3 := UInt8.ofNat (n / 16777216)

theorem word_lt (h : Head) : h.word < Bucket.words := Bucket.wordOf_lt _ _ _ _

theorem word_ofWord {n : Nat} (hn : n < Bucket.words) : (ofWord n).word = n := by
  simp only [Bucket.words] at hn
  simp only [word, ofWord, Bucket.wordOf, UInt8.toNat_ofNat']
  omega

theorem ofWord_word (h : Head) : ofWord h.word = h := by
  obtain ⟨b0, b1, b2, b3⟩ := h
  have h0 := b0.toNat_lt
  have h1 := b1.toNat_lt
  have h2 := b2.toNat_lt
  have h3 := b3.toNat_lt
  simp only [ofWord, word, Bucket.wordOf, Head.mk.injEq, ← UInt8.toNat_inj, UInt8.toNat_ofNat']
  omega

/-- Heads are the numbers below 2^32. -/
def equivWord : Fin Bucket.words ≃ Head where
  toFun n := ofWord n.val
  invFun h := ⟨h.word, h.word_lt⟩
  left_inv n := Fin.ext (word_ofWord n.isLt)
  right_inv h := ofWord_word h

instance : Fintype Head := Fintype.ofEquiv (Fin Bucket.words) equivWord

theorem card_eq : Fintype.card Head = Bucket.words := by
  rw [Fintype.ofEquiv_card equivWord, Fintype.card_fin]

theorem word_injective : Function.Injective word :=
  Function.LeftInverse.injective ofWord_word

theorem image_word_filter (P : Nat → Prop) [DecidablePred P] :
    ({h : Head | P h.word} : Finset Head).image word = {n ∈ range Bucket.words | P n} := by
  ext n
  simp only [mem_image, mem_filter, mem_univ, true_and, mem_range]
  constructor
  · intro hparts
    obtain ⟨h, hP, rfl⟩ := hparts
    exact ⟨word_lt h, hP⟩
  · intro hparts
    obtain ⟨hn, hP⟩ := hparts
    exact ⟨ofWord n, by rw [word_ofWord hn]; exact hP, word_ofWord hn⟩

/-- Counting heads by their words is counting below 2^32. -/
theorem card_filter_word (P : Nat → Prop) [DecidablePred P] :
    #{h : Head | P h.word} = #{n ∈ range Bucket.words | P n} := by
  rw [← image_word_filter, card_image_of_injective _ word_injective]

end Head

/-! ## The heads of a bucket -/

/-- The heads that lead to a bucket. -/
def bucketHeads (b : Nat) : Finset Head := {h | (Bucket.ofWord h.word).val = b}

/-- A word of the upper half stands for a negative number: its absolute value is the distance to
    2^32. -/
theorem ofWord_upper {k b : Nat} (hk : k < 2 ^ 31) (hb : b < 100) :
    (Bucket.ofWord (2 ^ 31 + k)).val = b ↔ k ≡ (148 - b) % 100 [MOD 100] := by
  simp only [Bucket.ofWord, Bucket.signed, Nat.ModEq]
  rw [if_neg (by omega)]
  omega

theorem ofWord_lower {k b : Nat} (hk : k < 2 ^ 31) (hb : b < 100) :
    (Bucket.ofWord k).val = b ↔ k ≡ b [MOD 100] := by
  simp only [Bucket.ofWord, Bucket.signed, Nat.ModEq]
  rw [if_pos hk]
  omega

theorem card_range_modEq (n v : Nat) :
    #{k ∈ range n | k ≡ v [MOD 100]} = n / 100 + if v % 100 < n % 100 then 1 else 0 := by
  rw [← Nat.count_eq_card_filter_range, Nat.count_modEq_card n (by decide)]

/-- The number of heads of a bucket, exactly. -/
theorem card_bucketHeads (b : Nat) (hb : b < 100) :
    #(bucketHeads b) =
      42949672 + (if b < 48 then 1 else 0) + if 1 ≤ b ∧ b ≤ 48 then 1 else 0 := by
  have hsplit : range Bucket.words = range (2 ^ 31) ∪ (range (2 ^ 31)).image (2 ^ 31 + ·) := by
    ext n
    simp only [Bucket.words, mem_range, mem_union, mem_image]
    constructor
    · intro hn
      by_cases h : n < 2 ^ 31
      · exact Or.inl h
      · exact Or.inr ⟨n - 2 ^ 31, by omega, by omega⟩
    · rintro (hn | ⟨k, hk, rfl⟩) <;> omega
  have hdisj : Disjoint (range (2 ^ 31)) ((range (2 ^ 31)).image (2 ^ 31 + ·)) := by
    rw [disjoint_left]
    simp only [mem_range, mem_image]
    rintro n hn ⟨k, -, rfl⟩
    omega
  unfold bucketHeads
  rw [Head.card_filter_word fun w => (Bucket.ofWord w).val = b, hsplit, filter_union,
    card_union_of_disjoint (disjoint_filter_filter hdisj), filter_image,
    card_image_of_injective _ (fun _ _ h => Nat.add_left_cancel h),
    filter_congr fun k hk => ofWord_lower (mem_range.1 hk) hb,
    filter_congr fun k hk => ofWord_upper (mem_range.1 hk) hb,
    card_range_modEq, card_range_modEq]
  split_ifs <;> omega

theorem card_bucketHeads_bounds (b : Nat) (hb : b < 100) :
    42949672 ≤ #(bucketHeads b) ∧ #(bucketHeads b) ≤ 42949674 := by
  rw [card_bucketHeads b hb]
  split_ifs <;> omega

/-! ## The heads of a position -/

/-- The position that a head leads to; without variants there is none. -/
def landing? (vs : List Variant) (h : Head) : Option Nat :=
  match vs with
  | [] => none
  | first :: more => some (pick (Bucket.ofWord h.word) first more).position

/-- The heads that lead to a position. -/
def positionHeads (vs : List Variant) (i : Nat) : Finset Head := {h | landing? vs h = some i}

/-- How many of the hundred buckets the variant at position `i` owns: what of its range lies below
    100 and, at the last position, what lies beyond all ranges. -/
def sliceSize (vs : List Variant) (i : Nat) : Nat :=
  min 100 (trafficBefore vs (i + 1)) - min 100 (trafficBefore vs i) +
    if i + 1 = vs.length then 100 - min 100 (trafficBefore vs vs.length) else 0

/-- The end of the buckets of position `i`, when there are `more` positions after the first. -/
def sliceEnd (first : Variant) (more : List Variant) (i : Nat) : Nat :=
  if i < more.length then min 100 (trafficBefore (first :: more) (i + 1)) else 100

theorem sliceSize_eq (first : Variant) (more : List Variant) {i : Nat} (h : i ≤ more.length) :
    sliceSize (first :: more) i =
      sliceEnd first more i - min 100 (trafficBefore (first :: more) i) := by
  have hm := trafficBefore_le_succ (first :: more) i
  unfold sliceSize sliceEnd
  rw [List.length_cons]
  rcases Nat.lt_or_eq_of_le h with h | rfl
  · rw [if_neg (by omega), if_pos h, Nat.add_zero]
  · rw [if_pos rfl, if_neg (Nat.lt_irrefl _)]
    omega

/-- A head leads to position `i` exactly when its bucket is one of those that `i` owns. -/
theorem landing?_eq_some_iff (first : Variant) (more : List Variant) (h : Head) {i : Nat}
    (hi : i ≤ more.length) :
    landing? (first :: more) h = some i ↔
      (Bucket.ofWord h.word).val ∈
        Ico (min 100 (trafficBefore (first :: more) i)) (sliceEnd first more i) := by
  have hb := (Bucket.ofWord h.word).isLt
  simp only [landing?, Option.some.injEq, position_pick_iff, mem_Ico, sliceEnd]
  split_ifs with hlt <;> omega

theorem mem_positionHeads {vs : List Variant} {i : Nat} {h : Head} :
    h ∈ positionHeads vs i ↔ landing? vs h = some i := by
  simp only [positionHeads, mem_filter, mem_univ, true_and]

/-- The heads of a position, counted bucket by bucket. -/
theorem card_positionHeads (first : Variant) (more : List Variant) {i : Nat}
    (hi : i ≤ more.length) :
    #(positionHeads (first :: more) i) =
      ∑ b ∈ Ico (min 100 (trafficBefore (first :: more) i)) (sliceEnd first more i),
        #(bucketHeads b) := by
  have hunion : positionHeads (first :: more) i =
      (Ico (min 100 (trafficBefore (first :: more) i)) (sliceEnd first more i)).biUnion
        bucketHeads := by
    ext h
    simp only [mem_positionHeads, landing?_eq_some_iff first more h hi, mem_biUnion, bucketHeads,
      mem_filter, mem_univ, true_and, exists_eq_right']
  rw [hunion, card_biUnion]
  intro b _ c _ hbc
  rw [Function.onFun, disjoint_left]
  simp only [bucketHeads, mem_filter, mem_univ, true_and]
  intro h hb hc
  exact hbc (hb.symm.trans hc)

theorem card_positionHeads_bounds (first : Variant) (more : List Variant) {i : Nat}
    (hi : i ≤ more.length) :
    42949672 * sliceSize (first :: more) i ≤ #(positionHeads (first :: more) i) ∧
      #(positionHeads (first :: more) i) ≤ 42949674 * sliceSize (first :: more) i := by
  have hbound : ∀ b ∈ Ico (min 100 (trafficBefore (first :: more) i)) (sliceEnd first more i),
      42949672 ≤ #(bucketHeads b) ∧ #(bucketHeads b) ≤ 42949674 := by
    intro b hb
    have hlt := (mem_Ico.1 hb).2
    refine card_bucketHeads_bounds b (Nat.lt_of_lt_of_le hlt ?_)
    unfold sliceEnd
    split_ifs <;> omega
  have hlow := card_nsmul_le_sum _ _ _ fun b hb => (hbound b hb).1
  have hhigh := sum_le_card_nsmul _ _ _ fun b hb => (hbound b hb).2
  rw [Nat.card_Ico, ← sliceSize_eq first more hi, smul_eq_mul, Nat.mul_comm] at hlow hhigh
  rw [card_positionHeads first more hi]
  exact ⟨hlow, hhigh⟩

/-- Every head leads to a position. -/
theorem sum_card_positionHeads (first : Variant) (more : List Variant) :
    ∑ i ∈ range (more.length + 1), #(positionHeads (first :: more) i) = 2 ^ 32 := by
  have hunion : (range (more.length + 1)).biUnion (positionHeads (first :: more)) = univ := by
    ext h
    simp only [mem_biUnion, mem_range, mem_positionHeads, mem_univ, iff_true]
    exact ⟨_, Nat.lt_succ_of_le (position_pick_spec (Bucket.ofWord h.word) first more).1, rfl⟩
  rw [← card_biUnion, hunion, card_univ, Head.card_eq, Bucket.words]
  intro i _ j _ hij
  rw [Function.onFun, disjoint_left]
  simp only [mem_positionHeads]
  intro h hi hj
  exact hij (Option.some.inj (hi.symm.trans hj))

/-- With percentages that add up to a hundred, every variant owns as many buckets as its
    percentage says. -/
theorem sliceSize_of_total {vs : List Variant} (htotal : totalTraffic vs = 100) (i : Nat)
    (hi : i < vs.length) : sliceSize vs i = vs[i].traffic.val := by
  have hend := trafficBefore_mono vs (Nat.succ_le_of_lt hi)
  rw [trafficBefore_length, htotal, Nat.succ_eq_add_one, trafficBefore_succ vs i hi] at hend
  unfold sliceSize
  rw [trafficBefore_length, htotal, trafficBefore_succ vs i hi]
  split_ifs <;> omega

/-! ## The digest of a key -/

/-- A digest starts with a head. -/
theorem exists_head (message : List UInt8) :
    ∃ (h : Head) (rest : List UInt8), Digest.Sha256.digest message = h.bytes ++ rest := by
  have hlen := Digest.Sha256.length_digest message
  match hd : Digest.Sha256.digest message with
  | b0 :: b1 :: b2 :: b3 :: rest => exact ⟨⟨b0, b1, b2, b3⟩, rest, rfl⟩
  | [] | [_] | [_, _] | [_, _, _] => simp [hd] at hlen

/-- Where a visitor is allocated, in terms of the head of the digest. -/
theorem position_allocate (e : Experiment) (he : e.variants ≠ []) (key : String)
    (hk : Text.isBlank key = false) :
    ∃ (h : Head) (rest : List UInt8),
      Digest.Sha256.digest (Text.utf8 (bucketingText e.id key)) = h.bytes ++ rest ∧
      ∃ a, allocate (some e) (some key) = .ok a ∧ landing? e.variants h = some a.position := by
  obtain ⟨h, rest, hd⟩ := exists_head (Text.utf8 (bucketingText e.id key))
  refine ⟨h, rest, hd, ?_⟩
  obtain ⟨first, more, hv⟩ := List.exists_cons_of_ne_nil he
  simp only [allocate, Text.isMissing, hk, hv, Option.getD_some, Bucket.ofKey, hd,
    Head.bytes, List.cons_append, Bucket.leadingWord]
  exact ⟨_, rfl, rfl⟩

/-! ## The split -/

/-- The heads of the digest split among the variants as the percentages say. A visitor gets the
    position of the head of the digest of `id:key`; the position of a variant that owns `s` of the
    hundred buckets has between 42949672 and 42949674 times `s` of the 2^32 heads, so a variant
    without buckets is never assigned; and where the percentages add up to a hundred, `s` is the
    variant's own percentage. -/
theorem traffic_follows_split (e : Experiment) (he : e.variants ≠ []) :
    (∀ key, Text.isBlank key = false → ∃ (h : Head) (rest : List UInt8),
      Digest.Sha256.digest (Text.utf8 (bucketingText e.id key)) = h.bytes ++ rest ∧
      ∃ a, allocate (some e) (some key) = .ok a ∧ landing? e.variants h = some a.position) ∧
    (∀ i < e.variants.length,
      42949672 * sliceSize e.variants i ≤ #(positionHeads e.variants i) ∧
        #(positionHeads e.variants i) ≤ 42949674 * sliceSize e.variants i) ∧
    ∑ i ∈ range e.variants.length, #(positionHeads e.variants i) = 2 ^ 32 ∧
    (∀ i < e.variants.length, sliceSize e.variants i = 0 →
      ∀ h, landing? e.variants h ≠ some i) ∧
    (totalTraffic e.variants = 100 → ∀ i, ∀ hi : i < e.variants.length,
      42949672 * e.variants[i].traffic.val ≤ #(positionHeads e.variants i) ∧
        #(positionHeads e.variants i) ≤ 42949674 * e.variants[i].traffic.val) := by
  obtain ⟨first, more, hv⟩ := List.exists_cons_of_ne_nil he
  have hbounds : ∀ i < e.variants.length,
      42949672 * sliceSize e.variants i ≤ #(positionHeads e.variants i) ∧
        #(positionHeads e.variants i) ≤ 42949674 * sliceSize e.variants i := by
    intro i hi
    rw [hv] at hi ⊢
    exact card_positionHeads_bounds first more (Nat.le_of_lt_succ hi)
  refine ⟨position_allocate e he, hbounds, ?_, ?_, ?_⟩
  · rw [hv, List.length_cons]
    exact sum_card_positionHeads first more
  · intro i hi hs h hl
    have hle := (hbounds i hi).2
    have hne := card_ne_zero_of_mem (mem_positionHeads.2 hl)
    rw [hs] at hle
    omega
  · intro htotal i hi
    rw [← sliceSize_of_total htotal i hi]
    exact hbounds i hi

/-- An experiment whose first variant takes nothing and whose percentages do not add up. -/
def lopsided : Experiment :=
  Seed.experiment "lopsided" "Lopsided" "landing"
    [Seed.variant "off" "Off" 0 [], Seed.variant "a" "A" 30 [], Seed.variant "b" "B" 50 []]

/-- The last variant owns the twenty buckets beyond its range as well; the first owns none. -/
theorem traffic_follows_split_lopsided :
    lopsided.variants ≠ [] ∧ sliceSize lopsided.variants 0 = 0 ∧
      (∀ h, landing? lopsided.variants h ≠ some 0) ∧ sliceSize lopsided.variants 2 = 70 ∧
      42949672 * 70 ≤ #(positionHeads lopsided.variants 2) := by
  have hne : lopsided.variants ≠ [] := by decide
  obtain ⟨-, hbounds, -, hempty, -⟩ := traffic_follows_split lopsided hne
  have h2 : sliceSize lopsided.variants 2 = 70 := by decide
  refine ⟨hne, by decide, hempty 0 (by decide) (by decide), h2, ?_⟩
  rw [← h2]
  exact (hbounds 2 (by decide)).1

end SplitTest
