import Mathlib
import SplitTest.Proofs.Allocation.Intervals

/-
  Changing the percentages of an experiment.
  When no boundary between two variants moves down, positions can only fall: a visitor moves by one
  position for every boundary that passes the bucket (`ramping_moves`). The end of the last range is
  no boundary, so the last percentage moves nobody.
-/

namespace SplitTest

open Finset

/-! ## Boundaries that move -/

/-- The positions whose range started at or below a bucket and starts above it now. -/
def boundariesPassing (before after : List Variant) (bucket : Nat) : Finset Nat :=
  {j ∈ Ico 1 before.length | trafficBefore before j ≤ bucket ∧ bucket < trafficBefore after j}

/-- No boundary moves down. -/
def Ramps (before after : List Variant) : Prop :=
  ∀ j, 1 ≤ j → j < before.length → trafficBefore before j ≤ trafficBefore after j

section

variable {before after : List Variant}

theorem boundariesUpTo_subset (hlen : after.length = before.length) (h : Ramps before after)
    (bucket : Nat) : boundariesUpTo after bucket ⊆ boundariesUpTo before bucket := by
  intro j hj
  rw [mem_boundariesUpTo, hlen] at hj
  rw [mem_boundariesUpTo]
  exact ⟨hj.1, (h j hj.1.1 hj.1.2).trans hj.2⟩

/-- The boundaries that are no longer at or below the bucket are those that have passed it. -/
theorem boundariesPassing_eq_sdiff (hlen : after.length = before.length) (bucket : Nat) :
    boundariesPassing before after bucket =
      boundariesUpTo before bucket \ boundariesUpTo after bucket := by
  ext j
  rw [boundariesPassing, mem_filter, mem_Ico, mem_sdiff, mem_boundariesUpTo, mem_boundariesUpTo,
    hlen]
  omega

theorem card_boundariesPassing (hlen : after.length = before.length) (h : Ramps before after)
    (bucket : Nat) :
    #(boundariesPassing before after bucket) =
      #(boundariesUpTo before bucket) - #(boundariesUpTo after bucket) := by
  rw [boundariesPassing_eq_sdiff hlen,
    card_sdiff_of_subset (boundariesUpTo_subset hlen h bucket)]

/-- Whoever is in the first range stays in it when that range grows. -/
theorem boundariesUpTo_eq_empty (hlen : after.length = before.length)
    (hfirst : trafficBefore before 1 ≤ trafficBefore after 1) {bucket : Nat}
    (h : boundariesUpTo before bucket = ∅) : boundariesUpTo after bucket = ∅ := by
  rw [eq_empty_iff_forall_notMem] at h ⊢
  intro j hj
  rw [mem_boundariesUpTo, hlen] at hj
  have hmono := trafficBefore_mono after hj.1.1
  apply h 1
  rw [mem_boundariesUpTo]
  omega

end

/-! ## Visitors that move -/

/-- Over two experiments of one id with the same number of variants, and every visitor, who gets the
    variant at some position of either: when no boundary moves down, the position does not rise, it
    falls by the number of boundaries that pass the visitor's bucket, and the visitor moves exactly
    if there is one. Nobody leaves the first variant when its percentage does not fall, and nobody
    moves when only the last one changes. -/
theorem ramping_moves {e e' : Experiment} (hid : e'.id = e.id)
    (hlen : e'.variants.length = e.variants.length) (hne : e.variants ≠ []) {key : String}
    (hkey : Text.isBlank key = false) :
    ∃ a a', allocate (some e) (some key) = .ok a ∧ allocate (some e') (some key) = .ok a' ∧
      a.bucket = Bucket.ofKey (bucketingText e.id key) ∧ a'.bucket = a.bucket ∧
      e.variants[a.position]? = some a.variant ∧ e'.variants[a'.position]? = some a'.variant ∧
      (Ramps e.variants e'.variants →
        a'.position ≤ a.position ∧
        a.position - a'.position =
          #(boundariesPassing e.variants e'.variants a.bucket.val) ∧
        (a'.position ≠ a.position ↔ ∃ j, 1 ≤ j ∧ j < e.variants.length ∧
          trafficBefore e.variants j ≤ a.bucket.val ∧
          a.bucket.val < trafficBefore e'.variants j)) ∧
      (trafficBefore e.variants 1 ≤ trafficBefore e'.variants 1 →
        a.position = 0 → a'.position = 0) ∧
      (e'.variants.dropLast.map Variant.traffic = e.variants.dropLast.map Variant.traffic →
        a'.position = a.position) := by
  have hne' : e'.variants ≠ [] := by
    rw [ne_eq, ← List.length_eq_zero_iff, hlen, List.length_eq_zero_iff]
    exact hne
  obtain ⟨a, ha, hby⟩ := exists_allocate hne hkey
  obtain ⟨a', ha', hby'⟩ := exists_allocate hne' hkey
  have hbucket : a'.bucket = a.bucket := by
    rw [hby'.bucket, hby.bucket, hid]
  have hposition : a.position = #(boundariesUpTo e.variants a.bucket.val) := hby.position
  have hposition' : a'.position = #(boundariesUpTo e'.variants a.bucket.val) := by
    rw [← hbucket]
    exact hby'.position
  refine ⟨a, a', ha, ha', hby.bucket, hbucket, hby.variant, hby'.variant, ?_, ?_, ?_⟩
  · intro hramps
    have hle := card_le_card (boundariesUpTo_subset hlen hramps a.bucket.val)
    have hcard := card_boundariesPassing hlen hramps a.bucket.val
    rw [hposition, hposition']
    refine ⟨hle, hcard.symm, ?_⟩
    have hmoves : #(boundariesUpTo e'.variants a.bucket.val) ≠
        #(boundariesUpTo e.variants a.bucket.val) ↔
        0 < #(boundariesPassing e.variants e'.variants a.bucket.val) := by
      omega
    rw [hmoves, card_pos]
    simp only [Finset.Nonempty, boundariesPassing, mem_filter, mem_Ico, and_assoc]
  · intro hfirst hzero
    rw [hposition, card_eq_zero] at hzero
    rw [hposition', card_eq_zero]
    exact boundariesUpTo_eq_empty hlen hfirst hzero
  · intro hlast
    rw [hposition, hposition', boundariesUpTo_congr hlast hlen]

/-- An experiment with two variants, the first of which has some traffic and the second the rest. -/
def ramped (traffic rest : Percentage) : Experiment :=
  Seed.experiment "exp1" "Ramped" "landing"
    [Seed.variant "on" "On" traffic [], Seed.variant "off" "Off" rest []]

/-- The visitor of bucket 23 moves to the first variant when its percentage goes from 20 to 30. -/
theorem ramping_moves_bucket23 :
    (ramped 30 70).id = (ramped 20 80).id ∧
      (ramped 30 70).variants.length = (ramped 20 80).variants.length ∧
      (ramped 20 80).variants ≠ [] ∧ Text.isBlank "user-1" = false ∧
      Ramps (ramped 20 80).variants (ramped 30 70).variants ∧
      ∃ a a', allocate (some (ramped 20 80)) (some "user-1") = .ok a ∧
        allocate (some (ramped 30 70)) (some "user-1") = .ok a' ∧
        a.position - a'.position = 1 := by
  have hid : (ramped 30 70).id = (ramped 20 80).id := rfl
  have hlen : (ramped 30 70).variants.length = (ramped 20 80).variants.length := rfl
  have hne : (ramped 20 80).variants ≠ [] := by decide
  have hkey : Text.isBlank "user-1" = false := by decide
  have hramps : Ramps (ramped 20 80).variants (ramped 30 70).variants := by
    intro j hone hj
    obtain rfl : j = 1 := by
      have : (ramped 20 80).variants.length = 2 := rfl
      omega
    decide
  have hbucket : (Bucket.ofKey (bucketingText (ramped 20 80).id "user-1")).val = 23 := by
    decide +kernel
  obtain ⟨a, a', ha, ha', hb, -, -, -, hmoves, -, -⟩ := ramping_moves hid hlen hne hkey
  obtain ⟨-, hcard, -⟩ := hmoves hramps
  rw [hb, hbucket] at hcard
  exact ⟨hid, hlen, hne, hkey, hramps, a, a', ha, ha', hcard.trans (by decide)⟩

end SplitTest
