import Mathlib
import SplitTest.Schema.Reading

/-
  When a reading has a value.
  One equivalence for each way that readings are put together: side by side, over the items of a
  list, over the fields of an object, and for a field by its name. The default of a field plays a
  part only where the field is missing.
-/

namespace SplitTest

/-- What is found under a name is an entry. -/
theorem Table.mem_of_get? {α : Type} {name : String} {t : Table α} {value : α}
    (h : t.get? name = some value) : (name, value) ∈ t := by
  induction t with
  | nil => cases h
  | cons entry rest ih =>
    rw [get?] at h
    split_ifs at h with hname
    · cases h
      rw [← hname]
      exact List.mem_cons_self
    · exact List.mem_cons_of_mem entry (ih h)

theorem Table.mem_of_last? {α : Type} {name : String} {t : Table α} {value : α}
    (h : t.last? name = some value) : (name, value) ∈ t :=
  List.mem_reverse.1 (mem_of_get? h)

namespace Reading

variable {α β : Type}

theorem eq_value_of_value? {r : Reading α} {a : α} (h : r.value? = some a) : r = .value a := by
  cases r with
  | value b => rw [Option.some.inj h]
  | faults fs => cases h

/-! ## Side by side -/

theorem functorMap_eq_value {f : α → β} {r : Reading α} {b : β} :
    f <$> r = .value b ↔ ∃ a, r = .value a ∧ f a = b :=
  map_eq_value

theorem seq_eq_value {rf : Reading (α → β)} {r : Reading α} {b : β} :
    rf <*> r = .value b ↔ ∃ f a, rf = .value f ∧ r = .value a ∧ f a = b := by
  change (both rf r).map (fun p => p.1 p.2) = .value b ↔ _
  rw [map_eq_value]
  constructor
  · intro hparts
    obtain ⟨⟨f, a⟩, hboth, hb⟩ := hparts
    obtain ⟨hf, ha⟩ := both_eq_value.1 hboth
    exact ⟨f, a, hf, ha, hb⟩
  · intro hparts
    obtain ⟨f, a, hf, ha, hb⟩ := hparts
    exact ⟨(f, a), both_eq_value.2 ⟨hf, ha⟩, hb⟩

/-! ## Items and fields -/

theorem items_eq_value {read : Json → Reading α} {index : Nat} {js : List Json} {as : List α} :
    items read index js = .value as ↔ List.Forall₂ (fun j a => read j = .value a) js as := by
  induction js generalizing index as with
  | nil => simp [items, eq_comm]
  | cons j rest ih =>
    rw [items, map_eq_value, List.forall₂_cons_left_iff]
    constructor
    · intro hparts
      obtain ⟨⟨a, more⟩, hboth, rfl⟩ := hparts
      obtain ⟨ha, hmore⟩ := both_eq_value.1 hboth
      exact ⟨a, more, under_eq_value.1 ha, ih.1 hmore, rfl⟩
    · intro hparts
      obtain ⟨a, more, ha, hmore, rfl⟩ := hparts
      exact ⟨(a, more), both_eq_value.2 ⟨under_eq_value.2 ha, ih.2 hmore⟩, rfl⟩

theorem entries_eq_value {read : Json → Reading α} {fields : Table Json} {t : Table α} :
    entries read fields = .value t ↔
      List.Forall₂ (fun f e => e.1 = f.1 ∧ read f.2 = .value e.2) fields t := by
  induction fields generalizing t with
  | nil => simp [entries, eq_comm]
  | cons f rest ih =>
    obtain ⟨name, j⟩ := f
    rw [entries, map_eq_value, List.forall₂_cons_left_iff]
    constructor
    · intro hparts
      obtain ⟨⟨a, more⟩, hboth, rfl⟩ := hparts
      obtain ⟨ha, hmore⟩ := both_eq_value.1 hboth
      exact ⟨(name, a), more, ⟨rfl, under_eq_value.1 ha⟩, ih.1 hmore, rfl⟩
    · intro hparts
      obtain ⟨⟨name', a⟩, more, ⟨hname, ha⟩, hmore, rfl⟩ := hparts
      cases hname
      exact ⟨(a, more), both_eq_value.2 ⟨under_eq_value.2 ha, ih.2 hmore⟩, rfl⟩

/-! ## Fields by name -/

/-- A field that is there is read, whether or not it may be missing. -/
theorem optional_eq_value_of_last? (name : Name) {default : α} {read : Json → Reading α}
    {fields : Table Json} {j : Json} (h : Table.last? name.written fields = some j) {a : α} :
    optional name default read fields = .value a ↔ read j = .value a := by
  rw [optional, h]
  exact under_eq_value

theorem required_eq_value_of_last? (name : Name) {read : Json → Reading α}
    {fields : Table Json} {j : Json} (h : Table.last? name.written fields = some j) {a : α} :
    required name read fields = .value a ↔ read j = .value a := by
  rw [required, h]
  exact under_eq_value

/-- A field has its default, or what was read from one of the fields. -/
theorem exists_of_optional_eq_value {name : Name} {default : α} {read : Json → Reading α}
    {fields : Table Json} {a : α} (h : optional name default read fields = .value a) :
    a = default ∨ ∃ f ∈ fields, read f.2 = .value a := by
  unfold optional at h
  split at h
  · next j hj => exact Or.inr ⟨_, Table.mem_of_last? hj, under_eq_value.1 h⟩
  · split at h
    · next j hj => exact Or.inr ⟨_, Table.mem_of_last? hj, under_eq_value.1 h⟩
    · cases h
      exact Or.inl rfl

/-- What an object has under one of the names of a field; the written name goes before the other. -/
def Name.find? (name : Name) (fields : Table Json) : Option Json :=
  (Table.last? name.written fields).or (Table.last? name.other fields)

/-- A field is read where it is found, and has its default elsewhere. -/
theorem optional_eq_value_iff {name : Name} {default : α} {read : Json → Reading α}
    {fields : Table Json} {a : α} :
    optional name default read fields = .value a ↔
      match name.find? fields with
      | some j => read j = .value a
      | none => default = a := by
  unfold optional Name.find?
  cases Table.last? name.written fields with
  | some j => exact under_eq_value
  | none =>
    cases Table.last? name.other fields with
    | some j => exact under_eq_value
    | none => simp

/-- Whether an object has a field under one of its names. -/
def Name.isIn (name : Name) (fields : Table Json) : Bool :=
  (Table.last? name.written fields).isSome || (Table.last? name.other fields).isSome

/-- The default of a field that is there plays no part. -/
theorem optional_of_isIn {name : Name} {fields : Table Json} (h : name.isIn fields = true)
    (default default' : α) (read : Json → Reading α) :
    optional name default read fields = optional name default' read fields := by
  unfold optional
  cases hwritten : Table.last? name.written fields with
  | some j => rfl
  | none =>
    cases hother : Table.last? name.other fields with
    | some j => rfl
    | none => simp [Name.isIn, hwritten, hother] at h

/-- A field that is not there has its default. -/
theorem optional_of_not_isIn {name : Name} {fields : Table Json} (h : name.isIn fields = false)
    (default : α) (read : Json → Reading α) :
    optional name default read fields = .value default := by
  rw [Name.isIn, Bool.or_eq_false_iff, Option.isSome_eq_false_iff, Option.isSome_eq_false_iff,
    Option.isNone_iff_eq_none, Option.isNone_iff_eq_none] at h
  rw [optional, h.1, h.2]

/-- A field that has a value has one under any other default, and the same one if it is there. -/
theorem exists_optional_eq_value {name : Name} {default : α} {read : Json → Reading α}
    {fields : Table Json} {a : α} (h : optional name default read fields = .value a)
    (default' : α) :
    ∃ a', optional name default' read fields = .value a' ∧
      (name.isIn fields = true → a = a') ∧
      (name.isIn fields = false → a = default ∧ a' = default') := by
  cases hin : name.isIn fields with
  | true =>
    rw [optional_of_isIn hin default default'] at h
    exact ⟨a, h, fun _ => rfl, nofun⟩
  | false =>
    rw [optional_of_not_isIn hin] at h
    cases h
    exact ⟨default', optional_of_not_isIn hin default' read, nofun, fun _ => ⟨rfl, rfl⟩⟩

end Reading

end SplitTest
