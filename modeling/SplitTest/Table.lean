/-
  Tables: values under names, in order.
  Setting a name that is there keeps its place; removing one closes the gap. A table that was not
  made by setting values may repeat a name; `get?` then finds its first value and `last?` its last.
-/

namespace SplitTest

/-- Named values in order. -/
abbrev Table (α : Type) := List (String × α)

namespace Table

variable {α : Type}

/-- The names of a table. -/
def names (t : Table α) : List String :=
  t.map Prod.fst

/-- Sets a value: in its place if the name is there, at the end if not. -/
def put (name : String) (value : α) : Table α → Table α
  | [] => [(name, value)]
  | (key, old) :: rest =>
    if key = name then (key, value) :: rest else (key, old) :: put name value rest

/-- The value under a name. -/
def get? (name : String) : Table α → Option α
  | [] => none
  | (key, value) :: rest => if key = name then some value else get? name rest

/-- The value under the last appearance of a name. -/
def last? (name : String) (t : Table α) : Option α :=
  get? name t.reverse

/-- Removes a name. -/
def remove (name : String) : Table α → Table α
  | [] => []
  | (key, value) :: rest => if key = name then rest else (key, value) :: remove name rest

theorem get?_put_self (name : String) (value : α) (t : Table α) :
    get? name (put name value t) = some value := by
  induction t with
  | nil => simp [put, get?]
  | cons entry rest ih => by_cases h : entry.1 = name <;> simp [put, get?, h, ih]

theorem get?_put_of_ne {name other : String} (h : other ≠ name) (value : α) (t : Table α) :
    get? other (put name value t) = get? other t := by
  induction t with
  | nil => simp [put, get?, h.symm]
  | cons entry rest ih =>
    by_cases hf : entry.1 = name
    · subst hf; simp [put, get?, h.symm]
    · simp [put, get?, hf, ih]

theorem get?_eq_none_iff {name : String} {t : Table α} : get? name t = none ↔ name ∉ names t := by
  induction t with
  | nil => simp [get?, names]
  | cons entry rest ih =>
    by_cases h : entry.1 = name
    · simp [get?, names, h]
    · simp only [get?, h, if_false, ih, names, List.map_cons, List.mem_cons, not_or]
      exact ⟨fun hm => ⟨fun e => h e.symm, hm⟩, fun hm => hm.2⟩

/-- Setting a name that is there keeps all names in place. -/
theorem names_put_of_mem {name : String} (value : α) {t : Table α} (h : name ∈ names t) :
    names (put name value t) = names t := by
  induction t with
  | nil => simp [names] at h
  | cons entry rest ih =>
    by_cases hf : entry.1 = name
    · simp [put, hf, names]
    · simp only [names, List.map_cons, List.mem_cons] at h
      have h' : name ∈ names rest := h.resolve_left (fun e => hf e.symm)
      have := ih h'
      simp only [names] at this
      simp [put, hf, names, this]

/-- A new name goes to the end. -/
theorem put_of_not_mem {name : String} (value : α) {t : Table α} (h : name ∉ names t) :
    put name value t = t ++ [(name, value)] := by
  induction t with
  | nil => rfl
  | cons entry rest ih =>
    simp only [names, List.map_cons, List.mem_cons, not_or] at h
    have := ih (by simpa [names] using h.2)
    simp [put, Ne.symm h.1, this]

theorem nodup_names_put {name : String} {value : α} {t : Table α} (h : (names t).Nodup) :
    (names (put name value t)).Nodup := by
  by_cases hm : name ∈ names t
  · rwa [names_put_of_mem value hm]
  · rw [put_of_not_mem value hm]
    simp only [names, List.map_append, List.map_cons, List.map_nil] at h hm ⊢
    refine List.nodup_append.2 ⟨h, List.nodup_cons.2 ⟨List.not_mem_nil, List.nodup_nil⟩, ?_⟩
    intro a ha b hb e
    simp only [List.mem_singleton] at hb
    exact hm (hb ▸ e ▸ ha)

end Table

end SplitTest
