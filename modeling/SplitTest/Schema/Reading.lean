import SplitTest.Json.Basic
import SplitTest.Schema.Fault

/-
  Reading a document field by field.
  A reading is a value, or all the faults that were found. Two readings side by side keep the
  faults of both, in order, so that a document is always reported on as a whole.
-/

namespace SplitTest

/-- A value, or the faults found in its place. -/
inductive Reading (α : Type)
  | value (a : α)
  | faults (fs : List Fault)

namespace Reading

variable {α β : Type}

/-- A single fault at the value itself. -/
def fail (kind : FaultKind) : Reading α :=
  .faults [⟨kind, []⟩]

def map (f : α → β) : Reading α → Reading β
  | .value a => .value (f a)
  | .faults fs => .faults fs

/-- Both readings; the faults of the first come first. -/
def both : Reading α → Reading β → Reading (α × β)
  | .value a, .value b => .value (a, b)
  | .value _, .faults gs => .faults gs
  | .faults fs, .value _ => .faults fs
  | .faults fs, .faults gs => .faults (fs ++ gs)

/-- A second reading of the value that the first gave. -/
def andThen (r : Reading α) (f : α → Reading β) : Reading β :=
  match r with
  | .value a => f a
  | .faults fs => .faults fs

instance : Applicative Reading where
  pure := .value
  map := map
  seq f x := (both f (x ())).map fun p => p.1 p.2

/-- The reading of a value one step further in. -/
def under (place : Place) : Reading α → Reading α
  | .value a => .value a
  | .faults fs => .faults (fs.map (Fault.under place))

/-- The value of a reading that has one. -/
def value? : Reading α → Option α
  | .value a => some a
  | .faults _ => none

/-- Reads all items of a list, the first of them at the given index. -/
def items (read : Json → Reading α) : Nat → List Json → Reading (List α)
  | _, [] => .value []
  | index, j :: rest =>
    (both ((read j).under (.item index)) (items read (index + 1) rest)).map fun p => p.1 :: p.2

/-- Reads the values of all fields, each as often as it is written. -/
def entries (read : Json → Reading α) : Table Json → Reading (Table α)
  | [] => .value []
  | (name, j) :: rest =>
    (both ((read j).under (.field name)) (entries read rest)).map fun p => (name, p.1) :: p.2

/-- A list of values. -/
def list (read : Json → Reading α) : Json → Reading (List α)
  | .array js => items read 0 js
  | _ => fail .listType

/-- A record with values of one kind under free names. -/
def dict (read : Json → Reading α) : Json → Reading (Table α)
  | .object fields => entries read fields
  | _ => fail .dictType

/-- A record with fixed fields. -/
def record (read : Table Json → Reading α) : Json → Reading α
  | .object fields => read fields
  | _ => fail .modelType

/-- The names a field goes by: the one it is written under, and a second one that is also read. -/
structure Name where
  written : String
  other : String

/-- A field under one name only. -/
def Name.only (name : String) : Name := ⟨name, name⟩

/-- Reads a field that may be missing. The written name goes before the other, and of a repeated
name only the last value is looked at. -/
def optional (name : Name) (default : α) (read : Json → Reading α)
    (fields : Table Json) : Reading α :=
  match Table.last? name.written fields with
  | some j => (read j).under (.field name.written)
  | none =>
    match Table.last? name.other fields with
    | some j => (read j).under (.field name.other)
    | none => .value default

/-- Reads a field that must be there. -/
def required (name : Name) (read : Json → Reading α) (fields : Table Json) : Reading α :=
  match Table.last? name.written fields with
  | some j => (read j).under (.field name.written)
  | none =>
    match Table.last? name.other fields with
    | some j => (read j).under (.field name.other)
    | none => (fail .missing).under (.field name.written)

theorem both_eq_value {r : Reading α} {s : Reading β} {a : α} {b : β} :
    r.both s = .value (a, b) ↔ r = .value a ∧ s = .value b := by
  cases r <;> cases s <;> simp [both]

theorem map_eq_value {r : Reading α} {f : α → β} {b : β} :
    r.map f = .value b ↔ ∃ a, r = .value a ∧ f a = b := by
  cases r <;> simp [map]

theorem under_eq_value {r : Reading α} {place : Place} {a : α} :
    r.under place = .value a ↔ r = .value a := by
  cases r <;> simp [under]

theorem andThen_eq_value {r : Reading α} {f : α → Reading β} {b : β} :
    r.andThen f = .value b ↔ ∃ a, r = .value a ∧ f a = .value b := by
  cases r <;> simp [andThen]

end Reading

end SplitTest
