import SplitTest.Bucket
import SplitTest.Experiment.Basic
import SplitTest.Program
import SplitTest.Text.Blank

/-
  Allocation: which variant of an experiment a visitor gets.
  The variants own consecutive slices of the hundred buckets, in their order. The bucket of
  `id:key` decides; a bucket beyond the last slice goes to the last variant.
-/

namespace SplitTest

-- A sum of no whole numbers is the literal 0, whichever library stands behind `sum`.
attribute [local instance (high)] Zero.ofOfNat0

/-- The traffic of all variants together, in percent. -/
def totalTraffic (vs : List Variant) : Nat :=
  (vs.map fun v => v.traffic.val).sum

/-- Walks the slices: the position and variant of the first one that ends above the bucket. -/
def sliceOf (bucket : Nat) (start position : Nat) : List Variant → Option (Nat × Variant)
  | [] => none
  | v :: vs =>
    if bucket < start + v.traffic.val then some (position, v)
    else sliceOf bucket (start + v.traffic.val) (position + 1) vs

/-- The outcome of an allocation. -/
structure Allocation where
  bucket : Bucket
  /-- The place of the variant in the experiment. -/
  position : Nat
  variant : Variant
  /-- The bucket lay beyond all slices. -/
  beyond : Bool
  deriving DecidableEq

/-- The variant, among a first and further ones, that owns a bucket. -/
def pick (bucket : Bucket) (first : Variant) (more : List Variant) : Allocation :=
  match sliceOf bucket.val 0 0 (first :: more) with
  | some (position, v) => ⟨bucket, position, v, false⟩
  | none => ⟨bucket, more.length, (first :: more).getLast (List.cons_ne_nil _ _), true⟩

/-- What is hashed for a visitor of an experiment. -/
def bucketingText (id key : String) : String :=
  id ++ ":" ++ key

/-- Allocates a visitor, known by a key, to a variant. -/
def allocate (experiment : Option Experiment) (key : Option String) : Except Error Allocation :=
  match experiment with
  | none => .error .noExperiment
  | some e =>
    if Text.isMissing key then .error (.blank .bucketingKey)
    else
      match e.variants with
      | [] => .error (.noVariants e.id)
      | first :: more => .ok (pick (Bucket.ofKey (bucketingText e.id (key.getD ""))) first more)

/-- The warning about an experiment that does not split all of its traffic. -/
def trafficEntries (e : Experiment) : List Entry :=
  let total := totalTraffic e.variants
  if total = 100 then []
  else [.warning s!"experiment '{e.id}' allocates {total}% of traffic, expected 100%"]

/-- What is reported about an allocation. -/
def allocationEntries (e : Experiment) (a : Allocation) : List Entry :=
  trafficEntries e ++
    if a.beyond then
      [.warning (s!"experiment '{e.id}': bucket {a.bucket.val} beyond {totalTraffic e.variants}%, " ++
        s!"falling back to '{a.variant.id}'")]
    else [.debug s!"experiment '{e.id}': bucket {a.bucket.val} -> variant '{a.variant.id}'"]

/-- Allocates a visitor and reports it. -/
def assign {Q : Type} {A : Q → Type} (experiment : Option Experiment) (key : Option String) :
    Program Q A Allocation :=
  match experiment, allocate experiment key with
  | some e, .ok a => (Program.reportAll (allocationEntries e a)).bind fun _ => .done a
  | _, result => Program.ofExcept result

end SplitTest
