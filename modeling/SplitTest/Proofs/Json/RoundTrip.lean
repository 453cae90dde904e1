import Mathlib
import SplitTest.Json.Document
import SplitTest.Proofs.Json.Scan

/-
  The text of a JSON value is read back.
  `written` is what is left of a value when it is written: doubles that JSON has no number for are
  `null`. A value is `Printable n` when it nests at most `n` containers and its numbers are not too
  long; the text of such a value, for `n` up to `deepest`, is parsed as `written` (`parse_render`).
-/

namespace SplitTest.Json

mutual

/-- What is left of a value when it is written. -/
def written : Json → Json
  | .scalar s => .scalar s.written
  | .array items => .array (writtenItems items)
  | .object fields => .object (writtenFields fields)

def writtenItems : List Json → List Json
  | [] => []
  | item :: rest => item.written :: writtenItems rest

def writtenFields : List (String × Json) → List (String × Json)
  | [] => []
  | (name, value) :: rest => (name, value.written) :: writtenFields rest

end

theorem writtenItems_eq_map (items : List Json) : writtenItems items = items.map written := by
  induction items with
  | nil => rfl
  | cons item rest ih => rw [writtenItems, ih, List.map_cons]

theorem writtenFields_eq_map (fields : List (String × Json)) :
    writtenFields fields = fields.map fun f => (f.1, f.2.written) := by
  induction fields with
  | nil => rfl
  | cons f rest ih => rw [writtenFields, ih, List.map_cons]

/-- At most `n` containers stand inside one another, and no number is too long. -/
inductive Printable : Nat → Json → Prop
  | scalar (n : Nat) {s : Scalar} (h : s.Sized) : Printable n (.scalar s)
  | array {n : Nat} {items : List Json} (h : ∀ j ∈ items, Printable n j) :
      Printable (n + 1) (.array items)
  | object {n : Nat} {fields : List (String × Json)} (h : ∀ f ∈ fields, Printable n f.2) :
      Printable (n + 1) (.object fields)

/-! ## Tokens one after another -/

theorem advanceAll_append (state : State) (as bs : List Token) :
    advanceAll state (as ++ bs) = (advanceAll state as).bind fun s => advanceAll s bs := by
  induction as generalizing state with
  | nil => rfl
  | cons t as ih =>
    rw [List.cons_append, advanceAll, advanceAll]
    cases advance state t with
    | none => rfl
    | some s => exact ih s

theorem advanceAll_cons {state : State} {t : Token} (next : State)
    (h : advance state t = some next) (ts : List Token) :
    advanceAll state (t :: ts) = advanceAll next ts := by
  rw [advanceAll, h, Option.bind_some]

theorem deliver_ne_value (v : Json) (stack above : List Frame) :
    deliver v stack ≠ .value above := by
  unfold deliver
  split <;> exact State.noConfusion

/-- The first item of an array is read as any value is, if it may be there at all. -/
theorem advanceAll_firstItem {stack : List Frame} (hdeep : stack.length < deepest)
    {ts : List Token} {v : Json} {above : List Frame}
    (h : advanceAll (.value (.array [] :: stack)) ts = some (deliver v above)) :
    advanceAll (.firstItem stack) ts = some (deliver v above) := by
  cases ts with
  | nil =>
    rw [advanceAll, Option.some.injEq] at h
    exact absurd h.symm (deliver_ne_value v above _)
  | cons t ts =>
    have hstart : t ≠ .closeArray := by
      intro heq
      subst heq
      simp [advanceAll, advance, begin] at h
    have hsame : advance (.firstItem stack) t = advance (.value (.array [] :: stack)) t := by
      simp [advance, hdeep]
    rwa [advanceAll, hsame]

/-! ## Texts that spell a value -/

/-- A text is scanned into tokens that spell a value, wherever up to `n` more containers may be
    open. -/
def Spells (n : Nat) (cs : List Char) (v : Json) : Prop :=
  ∃ ts, ScansTo cs ts ∧ ∀ stack : List Frame, stack.length + n ≤ deepest →
    advanceAll (.value stack) ts = some (deliver v stack)

/-- A text goes on with the items of an array up to its end. -/
def SpellsMoreItems (n : Nat) (cs : List Char) (items : List Json) : Prop :=
  ∃ ts, ScansTo cs ts ∧ ∀ (reversed : List Json) (stack : List Frame),
    stack.length + (n + 1) ≤ deepest → advanceAll (.nextItem reversed stack) ts =
      some (deliver (.array (reversed.reverse ++ items)) stack)

/-- A text goes on with the fields of an object up to its end. -/
def SpellsMoreFields (n : Nat) (cs : List Char) (fields : List (String × Json)) : Prop :=
  ∃ ts, ScansTo cs ts ∧ ∀ (reversed : Table Json) (stack : List Frame),
    stack.length + (n + 1) ≤ deepest → advanceAll (.nextField reversed stack) ts =
      some (deliver (.object (reversed.reverse ++ fields)) stack)

theorem runEnds_renderMoreItems (items : List Json) : RunEnds (renderMoreItems items) := by
  cases items <;> exact runEnds_cons rfl

theorem renderMoreItems_ne_nil (items : List Json) : renderMoreItems items ≠ [] := by
  cases items <;> exact List.cons_ne_nil _ _

theorem runEnds_renderMoreFields (fields : List (String × Json)) :
    RunEnds (renderMoreFields fields) := by
  rcases fields with _ | ⟨⟨name, v⟩, rest⟩ <;> exact runEnds_cons rfl

theorem renderMoreFields_ne_nil (fields : List (String × Json)) :
    renderMoreFields fields ≠ [] := by
  rcases fields with _ | ⟨⟨name, v⟩, rest⟩ <;> exact List.cons_ne_nil _ _

theorem spellsMoreItems {n : Nat} {items : List Json}
    (h : ∀ j ∈ items, Spells n (render j) j.written) :
    SpellsMoreItems n (renderMoreItems items) (writtenItems items) := by
  induction items with
  | nil =>
    refine ⟨[.closeArray], scansTo_mark rfl, ?_⟩
    intro reversed stack _
    rw [writtenItems, List.append_nil]
    rfl
  | cons item rest ih =>
    obtain ⟨ts, hscan, hread⟩ := h item List.mem_cons_self
    obtain ⟨more, hmore, hnext⟩ := ih fun j hj => h j (List.mem_cons_of_mem item hj)
    have hends := runEnds_renderMoreItems rest
    refine ⟨.comma :: (ts ++ more),
      (hscan.append hmore (renderMoreItems_ne_nil rest) hends).mark rfl, ?_⟩
    intro reversed stack hdeep
    have hitem := hread (.array reversed :: stack) (by simp only [List.length_cons]; omega)
    rw [advanceAll_cons (.value (.array reversed :: stack)) rfl, advanceAll_append, hitem,
      Option.bind_some, deliver, hnext _ _ hdeep, writtenItems, List.reverse_cons,
      List.append_assoc, List.singleton_append]

theorem spells_array {n : Nat} {items : List Json}
    (h : ∀ j ∈ items, Spells n (render j) j.written) :
    Spells (n + 1) (render (.array items)) (.array (writtenItems items)) := by
  cases items with
  | nil => exact ⟨[.openArray, .closeArray], (scansTo_mark rfl).mark rfl, fun _ _ => rfl⟩
  | cons item rest =>
    obtain ⟨ts, hscan, hread⟩ := h item List.mem_cons_self
    obtain ⟨more, hmore, hnext⟩ :=
      spellsMoreItems fun j hj => h j (List.mem_cons_of_mem item hj)
    have hends := runEnds_renderMoreItems rest
    refine ⟨.openArray :: (ts ++ more),
      (hscan.append hmore (renderMoreItems_ne_nil rest) hends).mark rfl, ?_⟩
    intro stack hdeep
    have hitem := hread (.array [] :: stack) (by simp only [List.length_cons]; omega)
    rw [advanceAll_cons (.firstItem stack) rfl, advanceAll_append,
      advanceAll_firstItem (by omega) hitem, Option.bind_some, deliver, hnext _ _ hdeep,
      writtenItems]
    rfl

/-- A name, its colon and a value, with what may follow. -/
theorem scansTo_field (name : String) {cs rest : List Char} {ts more : List Token}
    (hscan : ScansTo cs ts) (hmore : ScansTo rest more) (hne : rest ≠ []) (hends : RunEnds rest) :
    ScansTo (renderText name ++ ':' :: (cs ++ rest))
      (.scalar (.text name) :: .colon :: (ts ++ more)) :=
  (scansTo_renderText name).append ((hscan.append hmore hne hends).mark rfl)
    (List.cons_ne_nil _ _) (runEnds_cons rfl)

theorem spellsMoreFields {n : Nat} {fields : List (String × Json)}
    (h : ∀ f ∈ fields, Spells n (render f.2) f.2.written) :
    SpellsMoreFields n (renderMoreFields fields) (writtenFields fields) := by
  induction fields with
  | nil =>
    refine ⟨[.closeObject], scansTo_mark rfl, ?_⟩
    intro reversed stack _
    rw [writtenFields, List.append_nil]
    rfl
  | cons f rest ih =>
    obtain ⟨name, value⟩ := f
    obtain ⟨ts, hscan, hread⟩ := h (name, value) List.mem_cons_self
    obtain ⟨more, hmore, hnext⟩ := ih fun f hf => h f (List.mem_cons_of_mem _ hf)
    refine ⟨.comma :: .scalar (.text name) :: .colon :: (ts ++ more),
      (scansTo_field name hscan hmore (renderMoreFields_ne_nil rest)
        (runEnds_renderMoreFields rest)).mark rfl, ?_⟩
    intro reversed stack hdeep
    have hvalue := hread (.object reversed name :: stack)
      (by simp only [List.length_cons]; omega)
    rw [advanceAll_cons (.name reversed stack) rfl,
      advanceAll_cons (.colon reversed name stack) rfl,
      advanceAll_cons (.value (.object reversed name :: stack)) rfl, advanceAll_append,
      hvalue, Option.bind_some, deliver, hnext _ _ hdeep, writtenFields, List.reverse_cons,
      List.append_assoc, List.singleton_append]

theorem spells_object {n : Nat} {fields : List (String × Json)}
    (h : ∀ f ∈ fields, Spells n (render f.2) f.2.written) :
    Spells (n + 1) (render (.object fields)) (.object (writtenFields fields)) := by
  cases fields with
  | nil => exact ⟨[.openObject, .closeObject], (scansTo_mark rfl).mark rfl, fun _ _ => rfl⟩
  | cons f rest =>
    obtain ⟨name, value⟩ := f
    obtain ⟨ts, hscan, hread⟩ := h (name, value) List.mem_cons_self
    obtain ⟨more, hmore, hnext⟩ :=
      spellsMoreFields fun f hf => h f (List.mem_cons_of_mem _ hf)
    refine ⟨.openObject :: .scalar (.text name) :: .colon :: (ts ++ more),
      (scansTo_field name hscan hmore (renderMoreFields_ne_nil rest)
        (runEnds_renderMoreFields rest)).mark rfl, ?_⟩
    intro stack hdeep
    have hvalue := hread (.object [] name :: stack) (by simp only [List.length_cons]; omega)
    have hname : advance (.firstName stack) (.scalar (.text name)) =
        some (.colon [] name stack) := if_pos (by omega)
    rw [advanceAll_cons (.firstName stack) rfl, advanceAll_cons _ hname,
      advanceAll_cons (.value (.object [] name :: stack)) rfl, advanceAll_append,
      hvalue, Option.bind_some, deliver, hnext _ _ hdeep, writtenFields]
    rfl

/-! ## The round trip -/

theorem Printable.spells {n : Nat} {j : Json} (h : Printable n j) :
    Spells n (render j) j.written := by
  induction h with
  | scalar n h =>
    rw [render, written]
    exact ⟨_, scansTo_renderScalar h, fun _ _ => rfl⟩
  | array _ ih =>
    rw [written]
    exact spells_array ih
  | object _ ih =>
    rw [written]
    exact spells_object ih

/-- The text of a value that is neither too deep nor too long is parsed. -/
theorem parse_render {n : Nat} {j : Json} (h : Printable n j) (hn : n ≤ deepest) :
    parse (render j) = some j.written := by
  obtain ⟨ts, hscan, hread⟩ := h.spells
  have hall := hread [] (by simpa using hn)
  rw [parse, hscan.scan, Option.bind_some, ofTokens?, hall]
  rfl

/-- The text of an object is not empty. -/
theorem compact_object_ne_empty (fields : List (String × Json)) : (object fields).compact ≠ "" := by
  intro h
  have hlist := congrArg String.toList h
  rw [compact, String.toList_ofList, render] at hlist
  exact List.cons_ne_nil _ _ hlist

end SplitTest.Json
