import Mathlib
import SplitTest.Store.Command

/-
  What a field holds after a command.
  Setting or removing a field changes that field only. No command repeats a name in a hash, so a
  field that was removed is gone (`hasField_removeField_self`).
-/

namespace SplitTest

namespace Table

variable {α : Type}

theorem names_remove (name : String) (t : Table α) : names (remove name t) = (names t).erase name := by
  induction t with
  | nil => rfl
  | cons entry rest ih =>
    by_cases hname : entry.1 = name
    · simp [remove, names, hname]
    · simp only [remove, if_neg hname, names, List.map_cons]
      rw [List.erase_cons_tail (by simpa using hname)]
      exact congrArg _ ih

theorem nodup_names_remove {name : String} {t : Table α} (h : (names t).Nodup) :
    (names (remove name t)).Nodup := by
  rw [names_remove]
  exact h.erase name

theorem get?_remove_self {name : String} {t : Table α} (h : (names t).Nodup) :
    get? name (remove name t) = none := by
  rw [get?_eq_none_iff, names_remove]
  exact h.not_mem_erase

theorem get?_remove_of_ne {name other : String} (h : other ≠ name) (t : Table α) :
    get? other (remove name t) = get? other t := by
  induction t with
  | nil => rfl
  | cons entry rest ih =>
    by_cases hname : entry.1 = name
    · have hother : entry.1 ≠ other := by
        rw [hname]
        exact h.symm
      rw [remove, if_pos hname, get?, if_neg hother]
    · rw [remove, if_neg hname, get?, get?, ih]

/-- Where no name is repeated, every entry is what is found under its name. -/
theorem get?_eq_some_iff {name : String} {value : α} {t : Table α} (h : (names t).Nodup) :
    get? name t = some value ↔ (name, value) ∈ t := by
  induction t with
  | nil => simp [get?]
  | cons entry rest ih =>
    obtain ⟨key, old⟩ := entry
    simp only [names, List.map_cons, List.nodup_cons] at h
    rw [get?, List.mem_cons, Prod.mk.injEq]
    by_cases hname : key = name
    · rw [if_pos hname, Option.some.injEq]
      constructor
      · intro heq
        subst heq
        exact Or.inl ⟨hname.symm, rfl⟩
      · rintro (⟨-, rfl⟩ | hmem)
        · rfl
        · exact absurd (List.mem_map.2 ⟨_, hmem, hname.symm⟩) h.1
    · rw [if_neg hname, ih h.2]
      constructor
      · exact Or.inr
      · rintro (⟨rfl, -⟩ | hmem)
        · exact absurd rfl hname
        · exact hmem

end Table

namespace Store

/-- No hash repeats a name. -/
def Distinct (s : Store) : Prop := ∀ key, (s.hash key).names.Nodup

theorem distinct_empty : empty.Distinct := fun _ => List.nodup_nil

theorem Distinct.setHash {s : Store} (h : s.Distinct) (key : String) {fields : Table String}
    (hfields : fields.names.Nodup) : (s.setHash key fields).Distinct := by
  intro other
  by_cases hkey : other = key
  · rw [hkey, hash_setHash_self]
    exact hfields
  · rw [hash_setHash_of_ne s hkey]
    exact h other

theorem Distinct.setField {s : Store} (h : s.Distinct) (key field text : String) :
    (s.setField key field text).Distinct :=
  h.setHash key (Table.nodup_names_put (h key))

theorem Distinct.removeField {s : Store} (h : s.Distinct) (key field : String) :
    (s.removeField key field).Distinct := by
  unfold Store.removeField
  split_ifs
  · exact h.setHash key (Table.nodup_names_remove (h key))
  · exact h

theorem field?_setField (s : Store) (key field text other name : String) :
    (s.setField key field text).field? other name =
      if other = key ∧ name = field then some text else s.field? other name := by
  unfold setField field?
  by_cases hkey : other = key
  · rw [hkey, hash_setHash_self]
    by_cases hname : name = field
    · rw [if_pos ⟨rfl, hname⟩, hname, Table.get?_put_self]
    · rw [if_neg (fun h => hname h.2), Table.get?_put_of_ne hname]
  · rw [hash_setHash_of_ne s hkey, if_neg (fun h => hkey h.1)]

theorem field?_removeField_of_ne (s : Store) {key field other name : String}
    (h : ¬(other = key ∧ name = field)) :
    (s.removeField key field).field? other name = s.field? other name := by
  unfold removeField
  split_ifs
  · unfold field?
    by_cases hkey : other = key
    · rw [hkey, hash_setHash_self, Table.get?_remove_of_ne fun hname => h ⟨hkey, hname⟩]
    · rw [hash_setHash_of_ne s hkey]
  · rfl

theorem field?_removeField_self {s : Store} (h : s.Distinct) (key field : String) :
    (s.removeField key field).field? key field = none := by
  unfold removeField
  split_ifs with hhas
  · rw [field?, hash_setHash_self, Table.get?_remove_self (h key)]
  · simpa [hasField] using hhas

theorem field?_removeField {s : Store} (h : s.Distinct) (key field other name : String) :
    (s.removeField key field).field? other name =
      if other = key ∧ name = field then none else s.field? other name := by
  split_ifs with hfield
  · rw [hfield.1, hfield.2, field?_removeField_self h]
  · exact field?_removeField_of_ne s hfield

theorem hasField_eq_true_iff {s : Store} {key field : String} :
    s.hasField key field = true ↔ field ∈ (s.hash key).names := by
  rw [hasField, Option.isSome_iff_ne_none, field?, ne_eq, Table.get?_eq_none_iff, not_not]

theorem hasField_setField (s : Store) (key field text other name : String) :
    (s.setField key field text).hasField other name =
      (decide (other = key ∧ name = field) || s.hasField other name) := by
  rw [hasField, field?_setField, hasField]
  split_ifs with h
  · rw [decide_eq_true h, Bool.true_or, Option.isSome_some]
  · rw [decide_eq_false h, Bool.false_or]

theorem hasField_setField_self (s : Store) (key field text : String) :
    (s.setField key field text).hasField key field = true := by
  rw [hasField_setField, decide_eq_true ⟨rfl, rfl⟩, Bool.true_or]

theorem hasField_setField_of_hasField {s : Store} {key field : String}
    (h : s.hasField key field = true) (key' field' text : String) :
    (s.setField key' field' text).hasField key field = true := by
  rw [hasField_setField, h, Bool.or_true]

theorem hasField_removeField_self {s : Store} (h : s.Distinct) (key field : String) :
    (s.removeField key field).hasField key field = false := by
  rw [hasField, field?_removeField_self h]
  rfl

theorem addField_of_field?_eq_none {s : Store} {key field : String} (h : s.field? key field = none)
    (text : String) : s.addField key field text = s.setField key field text := by
  rw [addField, hasField, h]
  rfl

theorem addField_of_field?_eq_some {s : Store} {key field old : String}
    (h : s.field? key field = some old) (text : String) : s.addField key field text = s := by
  rw [addField, hasField, h]
  rfl

end Store

/-! ## Any command -/

namespace Command

/-- Only its removal makes a field go away. -/
theorem hasField_perform {s : Store} {key field : String} (h : s.hasField key field = true)
    {c : Command} (hc : c ≠ .removeField key field) : (c.perform s).2.hasField key field = true := by
  cases c with
  | ping | readText | readHash | readField | hasField => exact h
  | writeText key' text => exact h
  | writeField key' field' text => exact Store.hasField_setField_of_hasField h key' field' text
  | addField key' field' text =>
    simp only [Command.perform, Store.addField]
    split_ifs
    · exact h
    · exact Store.hasField_setField_of_hasField h key' field' text
  | removeField key' field' =>
    have hne : ¬(key = key' ∧ field = field') := by
      rintro ⟨rfl, rfl⟩
      exact hc rfl
    simp only [Command.perform, Store.hasField]
    rw [Store.field?_removeField_of_ne s hne]
    exact h

/-- Only its writing makes a field appear. -/
theorem exists_write_of_hasField {s : Store} {key field : String}
    (h : s.hasField key field = false) {c : Command}
    (hc : (c.perform s).2.hasField key field = true) :
    ∃ text, c = .addField key field text ∨ c = .writeField key field text := by
  have habsent : ¬s.hasField key field = true := Bool.eq_false_iff.1 h
  have hset : ∀ key' field' text, (s.setField key' field' text).hasField key field = true →
      key = key' ∧ field = field' := by
    intro key' field' text hthere
    by_contra hne
    rw [Store.hasField, Store.field?_setField, if_neg hne] at hthere
    exact habsent hthere
  cases c with
  | ping | readText | readHash | readField | hasField => exact absurd hc habsent
  | writeText key' text => exact absurd hc habsent
  | writeField key' field' text =>
    obtain ⟨rfl, rfl⟩ := hset key' field' text hc
    exact ⟨text, Or.inr rfl⟩
  | addField key' field' text =>
    simp only [Command.perform, Store.addField] at hc
    split_ifs at hc
    · exact absurd hc habsent
    · obtain ⟨rfl, rfl⟩ := hset key' field' text hc
      exact ⟨text, Or.inl rfl⟩
  | removeField key' field' =>
    refine absurd ?_ habsent
    by_cases hsame : key = key' ∧ field = field'
    · obtain ⟨rfl, rfl⟩ := hsame
      rwa [Command.perform, Store.removeField, if_neg habsent] at hc
    · simp only [Command.perform, Store.hasField] at hc
      rwa [Store.field?_removeField_of_ne s hsame] at hc

/-- No command repeats a name. -/
theorem distinct_perform {s : Store} (hs : s.Distinct) (c : Command) : (c.perform s).2.Distinct := by
  cases c with
  | ping | readText | readHash | readField | hasField => exact hs
  | writeText key text => exact hs
  | writeField key field text => exact hs.setField key field text
  | addField key field text =>
    simp only [Command.perform, Store.addField]
    split_ifs
    · exact hs
    · exact hs.setField key field text
  | removeField key field => exact hs.removeField key field

end Command

end SplitTest
