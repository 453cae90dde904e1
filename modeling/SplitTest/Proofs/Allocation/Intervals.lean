import Mathlib
import SplitTest.Proofs.Allocation.Walk
import SplitTest.Assignment.Basic
import SplitTest.Seed

/-
  The walk over the variants as a count.
  The prefix sums between the first and the last position are the boundaries at which one variant
  gives way to the next. The position of an allocation is the number of boundaries that lie at or
  below the bucket (`position_pick`), so the last variant's own percentage has no part in it. A
  bucket beyond all ranges exists only where the percentages do not add up, which has been reported
  by then (`allocation_by_intervals`).
-/

namespace SplitTest

open Finset

/-! ## Boundaries -/

/-- The positions after the first one whose range starts at or below a bucket. -/
def boundariesUpTo (vs : List Variant) (bucket : Nat) : Finset Nat :=
  {j ∈ Ico 1 vs.length | trafficBefore vs j ≤ bucket}

theorem mem_boundariesUpTo {vs : List Variant} {bucket j : Nat} :
    j ∈ boundariesUpTo vs bucket ↔ (1 ≤ j ∧ j < vs.length) ∧ trafficBefore vs j ≤ bucket := by
  rw [boundariesUpTo, mem_filter, mem_Ico]

/-- The boundaries up to the bucket are those up to the position: a prefix sum never falls. -/
theorem boundariesUpTo_eq_Ico (bucket : Bucket) (first : Variant) (more : List Variant) :
    boundariesUpTo (first :: more) bucket.val =
      Ico 1 ((pick bucket first more).position + 1) := by
  obtain ⟨hlen, hle, hlt⟩ := position_pick_spec bucket first more
  ext j
  rw [mem_boundariesUpTo, mem_Ico, List.length_cons]
  constructor
  · rintro ⟨⟨hone, hj⟩, hsum⟩
    refine ⟨hone, ?_⟩
    by_contra hbeyond
    have hmono := trafficBefore_mono (first :: more)
      (show (pick bucket first more).position + 1 ≤ j by omega)
    have := hlt (by omega)
    omega
  · rintro ⟨hone, hj⟩
    have hmono := trafficBefore_mono (first :: more)
      (show j ≤ (pick bucket first more).position by omega)
    omega

/-- The position of an allocation is the number of boundaries up to the bucket. -/
theorem position_pick (bucket : Bucket) (first : Variant) (more : List Variant) :
    (pick bucket first more).position = #(boundariesUpTo (first :: more) bucket.val) := by
  rw [boundariesUpTo_eq_Ico, Nat.card_Ico]
  omega

section

variable {before after : List Variant}

/-- The boundaries come from the percentages of all variants but the last. -/
theorem trafficBefore_congr
    (h : after.dropLast.map Variant.traffic = before.dropLast.map Variant.traffic)
    (hlen : after.length = before.length) {j : Nat} (hj : j < before.length) :
    trafficBefore after j = trafficBefore before j := by
  have htake : ∀ vs : List Variant, j < vs.length →
      trafficBefore vs j = (((vs.dropLast.map Variant.traffic).take j).map Fin.val).sum := by
    intro vs hvs
    have hdrop : vs.dropLast.take j = vs.take j := by
      rw [List.dropLast_eq_take, List.take_take, Nat.min_eq_left (by omega)]
    rw [← List.map_take, hdrop, List.map_map]
    rfl
  rw [htake after (by omega), htake before hj, h]

theorem boundariesUpTo_congr
    (h : after.dropLast.map Variant.traffic = before.dropLast.map Variant.traffic)
    (hlen : after.length = before.length) (bucket : Nat) :
    boundariesUpTo after bucket = boundariesUpTo before bucket := by
  ext j
  rw [mem_boundariesUpTo, mem_boundariesUpTo, hlen]
  refine and_congr_right fun hj => ?_
  rw [trafficBefore_congr h hlen hj.2]

end

/-! ## What an allocation holds -/

section

variable (bucket : Bucket) (first : Variant) (more : List Variant)

theorem bucket_pick : (pick bucket first more).bucket = bucket := by
  unfold pick
  split <;> rfl

/-- The variant is the one at the position. -/
theorem getElem?_position_pick :
    (first :: more)[(pick bucket first more).position]? =
      some (pick bucket first more).variant := by
  unfold pick
  cases h : sliceOf bucket.val 0 0 (first :: more) with
  | none =>
    rw [List.getLast_eq_getElem]
    simp
  | some r =>
    obtain ⟨position, v⟩ := r
    obtain ⟨i, hi, hq, rfl, -, -⟩ := sliceOf_eq_some h
    rw [Nat.zero_add] at hq
    subst hq
    exact List.getElem?_eq_getElem hi

/-- A bucket lies beyond all ranges when the percentages do not reach it together. -/
theorem beyond_pick_iff :
    (pick bucket first more).beyond = true ↔ totalTraffic (first :: more) ≤ bucket.val := by
  rw [← trafficBefore_length]
  unfold pick
  cases h : sliceOf bucket.val 0 0 (first :: more) with
  | none =>
    have := sliceOf_eq_none h (Nat.zero_le _)
    rw [Nat.zero_add] at this
    exact iff_of_true rfl this
  | some r =>
    obtain ⟨i, hi, -, -, hlt, -⟩ := sliceOf_eq_some h
    have hmono := trafficBefore_mono (first :: more) (Nat.succ_le_of_lt hi)
    refine iff_of_false Bool.false_ne_true ?_
    simp only [Nat.succ_eq_add_one] at hmono
    omega

end

/-- A visitor with a key is allocated to some variant of an experiment that has one. -/
theorem allocate_eq_ok {e : Experiment} {first : Variant} {more : List Variant}
    (hvariants : e.variants = first :: more) {key : String} (hkey : Text.isBlank key = false) :
    allocate (some e) (some key) =
      .ok (pick (Bucket.ofKey (bucketingText e.id key)) first more) := by
  simp only [allocate, Text.isMissing, hkey, hvariants, Option.getD_some, Bool.false_eq_true,
    if_false]

/-- An allocation is refused, or there is nothing to allocate, or it is made. -/
theorem allocate_cases (experiment : Option Experiment) (key : Option String) :
    ((experiment = none ∨ Text.isMissing key = true) ∧
        ∃ error, allocate experiment key = .error error ∧ error.refusesArgument = true) ∨
      (∃ e, experiment = some e ∧ Text.isMissing key = false ∧ e.variants = [] ∧
        allocate experiment key = .error (.noVariants e.id)) ∨
      ∃ e k a, experiment = some e ∧ key = some k ∧ Text.isBlank k = false ∧ e.variants ≠ [] ∧
        allocate experiment key = .ok a := by
  cases experiment with
  | none => exact Or.inl ⟨Or.inl rfl, .noExperiment, rfl, rfl⟩
  | some e =>
    cases hmissing : Text.isMissing key with
    | true =>
      refine Or.inl ⟨Or.inr rfl, .blank .bucketingKey, ?_, rfl⟩
      simp only [allocate, hmissing, if_true]
    | false =>
      obtain ⟨k, rfl⟩ : ∃ k, key = some k := by
        cases key with
        | none => exact absurd hmissing Bool.noConfusion
        | some k => exact ⟨k, rfl⟩
      cases hvariants : e.variants with
      | nil =>
        refine Or.inr (Or.inl ⟨e, rfl, rfl, hvariants, ?_⟩)
        simp only [allocate, hmissing, hvariants, Bool.false_eq_true, if_false]
      | cons first more =>
        exact Or.inr (Or.inr ⟨e, k, _, rfl, rfl, hmissing, by simp [hvariants],
          allocate_eq_ok hvariants hmissing⟩)

/-! ## Reports -/

section

variable {Q : Type} {A : Q → Type} {σ : Type} (answer : (q : Q) → World σ → A q × World σ)

theorem run_reportAll (entries : List Entry) (w : World σ) :
    (Program.reportAll entries).run answer w = (.ok (), { w with log := w.log ++ entries }) := by
  induction entries generalizing w with
  | nil => simp [Program.reportAll, Program.run]
  | cons entry entries ih =>
    change (Program.reportAll entries).run answer { w with log := w.log ++ [entry] } = _
    rw [ih, List.append_assoc, List.singleton_append]

/-- An allocation that is made is reported, and nothing else happens. -/
theorem run_assign_of_ok {e : Experiment} {key : Option String} {a : Allocation}
    (h : allocate (some e) key = .ok a) (w : World σ) :
    (assign (some e) key).run answer w =
      (.ok a, { w with log := w.log ++ allocationEntries e a }) := by
  unfold assign
  rw [h]
  dsimp only
  rw [Program.run_bind, run_reportAll]
  rfl

/-- An allocation that is not made leaves no trace. -/
theorem run_assign_of_error {experiment : Option Experiment} {key : Option String} {error : Error}
    (h : allocate experiment key = .error error) (w : World σ) :
    (assign experiment key).run answer w = (.error error, w) := by
  unfold assign
  rw [h]
  cases experiment <;> rfl

theorem fst_run_assign (experiment : Option Experiment) (key : Option String) (w : World σ) :
    ((assign experiment key).run answer w).1 = allocate experiment key := by
  cases h : allocate experiment key with
  | error error => rw [run_assign_of_error answer h]
  | ok a =>
    cases experiment with
    | none => exact absurd h (by simp [allocate])
    | some e => rw [run_assign_of_ok answer h]

end

/-- The warning that the percentages do not add up. -/
def trafficWarning (e : Experiment) : Entry :=
  .warning s!"experiment '{e.id}' allocates {totalTraffic e.variants}% of traffic, expected 100%"

/-- The warning that the bucket lies beyond all ranges. -/
def fallbackWarning (e : Experiment) (a : Allocation) : Entry :=
  .warning (s!"experiment '{e.id}': bucket {a.bucket.val} beyond {totalTraffic e.variants}%, " ++
    s!"falling back to '{a.variant.id}'")

/-- The note which variant was allocated. -/
def allocationNote (e : Experiment) (a : Allocation) : Entry :=
  .debug s!"experiment '{e.id}': bucket {a.bucket.val} -> variant '{a.variant.id}'"

theorem trafficEntries_of_ne {e : Experiment} (h : totalTraffic e.variants ≠ 100) :
    trafficEntries e = [trafficWarning e] := by
  unfold trafficEntries
  rw [if_neg h]
  rfl

/-! ## The allocation -/

/-- An allocation as the boundaries give it. -/
structure ByIntervals (e : Experiment) (key : String) (a : Allocation) : Prop where
  bucket : a.bucket = Bucket.ofKey (bucketingText e.id key)
  variant : e.variants[a.position]? = some a.variant
  position : a.position = #{j ∈ Ico 1 e.variants.length | trafficBefore e.variants j ≤ a.bucket.val}
  /-- Before the last position, the range of a position decides. -/
  interval : ∀ i, i + 1 < e.variants.length →
    (a.position = i ↔
      trafficBefore e.variants i ≤ a.bucket.val ∧ a.bucket.val < trafficBefore e.variants (i + 1))
  /-- Nobody is sent to a variant without traffic that is not the last. -/
  empty : ∀ i, ∀ hi : i + 1 < e.variants.length, e.variants[i].traffic.val = 0 → a.position ≠ i
  beyond : a.beyond = true ↔ trafficBefore e.variants e.variants.length ≤ a.bucket.val

theorem byIntervals_pick {e : Experiment} {first : Variant} {more : List Variant}
    (hvariants : e.variants = first :: more) (key : String) :
    ByIntervals e key (pick (Bucket.ofKey (bucketingText e.id key)) first more) := by
  generalize hb : Bucket.ofKey (bucketingText e.id key) = bucket
  have hinterval : ∀ i, i + 1 < e.variants.length →
      ((pick bucket first more).position = i ↔
        trafficBefore e.variants i ≤ bucket.val ∧
          bucket.val < trafficBefore e.variants (i + 1)) := by
    intro i hi
    rw [hvariants, List.length_cons] at hi
    rw [position_pick_iff, hvariants]
    constructor
    · rintro ⟨-, hle, hlt⟩
      exact ⟨hle, hlt (by omega)⟩
    · rintro ⟨hle, hlt⟩
      exact ⟨by omega, hle, fun _ => hlt⟩
  refine ⟨?_, ?_, ?_, ?_, ?_, ?_⟩
  · rw [bucket_pick, hb]
  · rw [hvariants]
    exact getElem?_position_pick bucket first more
  · rw [bucket_pick, hvariants]
    exact position_pick bucket first more
  · rw [bucket_pick]
    exact hinterval
  · intro i hi hzero hposition
    obtain ⟨hle, hlt⟩ := (hinterval i hi).1 hposition
    rw [trafficBefore_succ e.variants i (by omega), hzero] at hlt
    omega
  · rw [bucket_pick, trafficBefore_length, hvariants]
    exact beyond_pick_iff bucket first more

theorem exists_allocate {e : Experiment} (hne : e.variants ≠ []) {key : String}
    (hkey : Text.isBlank key = false) :
    ∃ a, allocate (some e) (some key) = .ok a ∧ ByIntervals e key a := by
  obtain ⟨first, more, hvariants⟩ := List.exists_cons_of_ne_nil hne
  exact ⟨_, allocate_eq_ok hvariants hkey, byIntervals_pick hvariants key⟩

/-- With another percentage for the last variant, an allocation has the same position and the same
    variant, that percentage apart. -/
theorem exists_allocate_last {e : Experiment} {init : List Variant} {last : Variant}
    (hvariants : e.variants = init ++ [last]) {key : String} (hkey : Text.isBlank key = false)
    {a : Allocation} (h : ByIntervals e key a) (traffic : Percentage) :
    ∃ a', allocate (some { e with variants := init ++ [{ last with traffic }] }) (some key) =
        .ok a' ∧
      a'.position = a.position ∧ a'.variant.assigned = a.variant.assigned := by
  obtain ⟨a', ha', h'⟩ :=
    exists_allocate (e := { e with variants := init ++ [{ last with traffic }] }) (by simp) hkey
  have hbucket : a'.bucket = a.bucket := h'.bucket.trans h.bucket.symm
  have hboundaries : boundariesUpTo (init ++ [{ last with traffic }]) a.bucket.val =
      boundariesUpTo e.variants a.bucket.val :=
    boundariesUpTo_congr (by simp [hvariants]) (by simp [hvariants]) _
  have hposition : a'.position = a.position := by
    rw [h'.position, hbucket]
    exact (congrArg card hboundaries).trans h.position.symm
  refine ⟨a', ha', hposition, ?_⟩
  have hvariant := h.variant
  have hvariant' : (init ++ [{ last with traffic }])[a.position]? = some a'.variant := by
    rw [← hposition]
    exact h'.variant
  rw [hvariants, List.getElem?_append] at hvariant
  rw [List.getElem?_append] at hvariant'
  split_ifs at hvariant hvariant' with hlt
  · rw [hvariant] at hvariant'
    rw [Option.some.inj hvariant']
  · rw [List.getElem?_singleton] at hvariant hvariant'
    split_ifs at hvariant hvariant'
    rw [← Option.some.inj hvariant, ← Option.some.inj hvariant']
    rfl

/-- A visitor is allocated, whatever the surroundings are, as the boundaries say. The call is
    refused exactly if there is no experiment or the key is blank, and fails for want of variants
    exactly if there are none. Otherwise the position is the number of boundaries up to the bucket,
    and the last variant's own percentage has no influence on it. The last variant steps in exactly
    if the bucket lies beyond all ranges; then the percentages do not reach a hundred, and the warning
    about that comes first. -/
theorem allocation_by_intervals {Q : Type} {A : Q → Type} {σ : Type}
    (answer : (q : Q) → World σ → A q × World σ) (experiment : Option Experiment)
    (key : Option String) (w : World σ) :
    ((∃ error, ((assign experiment key).run answer w).1 = .error error ∧
        error.refusesArgument = true) ↔ experiment = none ∨ Text.isMissing key = true) ∧
    (∀ id, ((assign experiment key).run answer w).1 = .error (.noVariants id) ↔
      ∃ e, experiment = some e ∧ Text.isMissing key = false ∧ e.variants = [] ∧ id = e.id) ∧
    ∀ e k, experiment = some e → key = some k → Text.isBlank k = false → e.variants ≠ [] →
      ∃ a log, (assign experiment key).run answer w = (.ok a, { w with log := w.log ++ log }) ∧
        ByIntervals e k a ∧
        (totalTraffic e.variants ≤ a.bucket.val →
          totalTraffic e.variants < 100 ∧ log = [trafficWarning e, fallbackWarning e a]) ∧
        (a.bucket.val < totalTraffic e.variants →
          log = trafficEntries e ++ [allocationNote e a]) ∧
        ∀ init last, e.variants = init ++ [last] → ∀ traffic, ∃ a',
          ((assign (some { e with variants := init ++ [{ last with traffic }] }) key).run
            answer w).1 = .ok a' ∧
          a'.position = a.position ∧ a'.variant.assigned = a.variant.assigned := by
  rw [fst_run_assign]
  refine ⟨?_, ?_, ?_⟩
  · rcases allocate_cases experiment key with
      ⟨hrefused, hparts⟩ | ⟨e, rfl, hkey, -, herror⟩ | ⟨e, k, a, rfl, rfl, hkey, -, hok⟩
    · exact iff_of_true hparts hrefused
    · simp [herror, Error.refusesArgument, hkey]
    · simp [hok, Text.isMissing, hkey]
  · intro id
    rcases allocate_cases experiment key with
      ⟨hrefused, error, herror, hargument⟩ | ⟨e, rfl, hkey, hempty, herror⟩ |
      ⟨e, k, a, rfl, rfl, hkey, hne, hok⟩
    · rw [herror]
      constructor
      · intro h
        rw [Except.error.inj h] at hargument
        exact absurd hargument Bool.false_ne_true
      · rintro ⟨e, rfl, hkey, -, -⟩
        simp [hkey] at hrefused
    · simp [herror, hkey, hempty, eq_comm]
    · simp [hok, hne]
  · rintro e k rfl rfl hkey hne
    obtain ⟨a, hallocate, hby⟩ := exists_allocate hne hkey
    refine ⟨a, allocationEntries e a, run_assign_of_ok answer hallocate w, hby, ?_, ?_, ?_⟩
    · intro hle
      have hbucket := a.bucket.isLt
      have hbeyond := hby.beyond.2 (by rwa [trafficBefore_length])
      refine ⟨by omega, ?_⟩
      rw [allocationEntries, trafficEntries_of_ne (by omega), if_pos hbeyond]
      rfl
    · intro hlt
      have hwithin : ¬a.beyond = true := by
        rw [hby.beyond, trafficBefore_length]
        omega
      rw [allocationEntries, if_neg hwithin]
      rfl
    · intro init last hlast traffic
      rw [fst_run_assign]
      exact exists_allocate_last hlast hkey hby traffic

/-- An experiment whose variants take twenty buckets between them. -/
def underAllocated : Experiment :=
  Seed.experiment "exp1" "Half-hearted" "landing"
    [Seed.variant "a" "A" 10 [], Seed.variant "b" "B" 10 []]

/-- The visitor of bucket 23 gets the last variant, with both warnings. -/
theorem allocation_by_intervals_underAllocated :
    Text.isBlank "user-1" = false ∧ underAllocated.variants ≠ [] ∧
      ∃ a, (assign (some underAllocated) (some "user-1")).run (Q := Empty) (A := fun _ => Unit)
          (fun q _ => q.elim) ⟨0, 0, [], [], ()⟩ =
        (.ok a, ⟨0, 0, [trafficWarning underAllocated, fallbackWarning underAllocated a], [], ()⟩) ∧
      a.position = 1 := by
  have hkey : Text.isBlank "user-1" = false := by decide
  have hne : underAllocated.variants ≠ [] := by decide
  have hbucket : (Bucket.ofKey (bucketingText underAllocated.id "user-1")).val = 23 := by
    decide +kernel
  obtain ⟨-, -, hallocated⟩ := allocation_by_intervals (Q := Empty) (A := fun _ => Unit)
    (fun q _ => q.elim) (some underAllocated) (some "user-1") ⟨0, 0, [], [], ()⟩
  obtain ⟨a, log, hrun, hby, hbeyond, -, -⟩ := hallocated _ _ rfl rfl hkey hne
  have ha : a.bucket.val = 23 := by rw [hby.bucket, hbucket]
  have htotal : totalTraffic underAllocated.variants = 20 := by decide
  obtain ⟨-, rfl⟩ := hbeyond (by omega)
  refine ⟨hkey, hne, a, hrun, ?_⟩
  rw [hby.position, ha]
  decide

end SplitTest
