import Mathlib
import SplitTest.Proofs.Assignment.Service
import SplitTest.Proofs.Experiment.Entries
import SplitTest.Proofs.Store.Healthy

/-
  The repository over a healthy store, call by call.
  A `Catalogue` is a map of entries and the number of ids taken; `create`, `update`, `delete` and
  `get` say what each call means for it. A store that works `Models` a catalogue, and every call
  answers as the catalogue does and leaves a store that models the catalogue after the call. A
  document is read back only if its doubles are finite, which `runs_get` and `runs_active` ask for.
-/

namespace SplitTest

open Entries

/-- The experiments by page and id, and the number of ids taken. -/
structure Catalogue where
  issued : Nat
  entries : Entries

namespace Catalogue

/-- The id that an experiment is stored under: its own, or the next one if its own is empty. -/
def idFor (c : Catalogue) (e : Experiment) : String :=
  if e.id = "" then idOfNumber (c.issued + 1) else e.id

/-- The catalogue after that id was taken. -/
def taking (c : Catalogue) (e : Experiment) : Catalogue :=
  if e.id = "" then { c with issued := c.issued + 1 } else c

def set (c : Catalogue) (page id : String) (e : Option Experiment) : Catalogue :=
  { c with entries := c.entries.set page id e }

/-- An experiment as it is stored when it is new: created and updated now. -/
def stored (c : Catalogue) (now : Instant) (e : Experiment) : Experiment :=
  { e with id := c.idFor e, createdAt := .utc now, updatedAt := .utc now }

/-- A new entry where there is none. -/
def create (c : Catalogue) (now : Instant) :
    Option Experiment → Except Error Experiment × Catalogue
  | none => (.error .noExperiment, c)
  | some e =>
    if Text.isBlank e.page then (.error (.blank .page), c)
    else
      match c.entries e.page (c.idFor e) with
      | some _ => (.error (.conflict (c.idFor e) e.page), c.taking e)
      | none =>
        (.ok (c.stored now e), (c.taking e).set e.page (c.idFor e) (some (c.stored now e)))

/-- Another entry, updated now, where there is one. -/
def update (c : Catalogue) (now : Instant) :
    Option Experiment → Except Error Experiment × Catalogue
  | none => (.error .noExperiment, c)
  | some e =>
    if Text.isBlank e.id then (.error (.blank .experimentId), c)
    else if Text.isBlank e.page then (.error (.blank .page), c)
    else
      let stored := { e with updatedAt := .utc now }
      match c.entries e.page e.id with
      | none => (.error (.notFound e.id e.page), c)
      | some _ => (.ok stored, c.set e.page e.id (some stored))

/-- No entry any more, and whether there was one. -/
def delete (c : Catalogue) (id page : String) : Except Error Bool × Catalogue :=
  if Text.isBlank id then (.error (.blank .experimentId), c)
  else if Text.isBlank page then (.error (.blank .page), c)
  else (.ok (c.entries page id).isSome, c.set page id none)

/-- The entry, if there is one. -/
def get (c : Catalogue) (id page : String) : Except Error (Option Experiment) :=
  if Text.isBlank id then .error (.blank .experimentId)
  else if Text.isBlank page then .error (.blank .page)
  else .ok (c.entries page id)

end Catalogue

/-- The store holds the entries of a catalogue, and as many ids are taken. -/
structure Models (keys : Keys) (v : View) (c : Catalogue) : Prop where
  holds : Holds keys v.store c.entries
  issued : v.issued = c.issued

/-! ## Documents -/

/-- Loading a text depends on the clock only, and changes nothing. -/
theorem runs_load (text : String) (v : View) :
    Runs (Experiments.load text) v (Experiments.decode (.utc v.clock) text) v := by
  refine Runs.bind Runs.now (Runs.bind Runs.now ?_)
  unfold Experiments.decode Experiment.ofText
  cases Experiment.ofTextAt (.utc v.clock) (.utc v.clock) text with
  | value e => exact Runs.done e
  | faults faults => exact Runs.fail _

theorem runs_loadAll (texts : List String) (v : View) :
    Runs (Experiments.loadAll texts) v (texts.mapM (Experiments.decode (.utc v.clock))) v := by
  induction texts with
  | nil => exact Runs.done []
  | cons text texts ih =>
    have hload := runs_load text v
    rw [List.mapM_cons]
    cases hfirst : Experiments.decode (.utc v.clock) text with
    | error error =>
      rw [hfirst] at hload
      exact Runs.bind_error hload
    | ok e =>
      rw [hfirst] at hload
      cases hrest : texts.mapM (Experiments.decode (.utc v.clock)) with
      | error error =>
        rw [hrest] at ih
        exact Runs.bind hload (Runs.bind_error ih)
      | ok all =>
        rw [hrest] at ih
        exact Runs.bind hload (Runs.bind ih (Runs.done _))

/-- The document of an experiment with finite doubles is read back. -/
theorem decode_render {now : Timestamp} {e : Experiment} (hsized : e.Sized) (hfinite : e.Finite) :
    Experiments.decode now e.render = .ok e :=
  decode_eq_ok_iff.2 ((Experiment.ofText_render_eq_value hsized).2 ⟨hfinite, rfl⟩)

/-! ## Writing -/

theorem runs_addField_taken {v : View} {key field old : String}
    (h : v.store.field? key field = some old) (text : String) :
    Runs (StoreProgram.send (.addField key field text)) v (.ok false) v := by
  have hsend : Runs (StoreProgram.send (.addField key field text)) v _ _ :=
    Runs.send fun _ => rfl
  simp only [Command.perform, Store.hasField, h, Store.addField_of_field?_eq_some h] at hsend
  exact hsend

theorem runs_addField_free {v : View} {key field : String} (h : v.store.field? key field = none)
    (text : String) :
    Runs (StoreProgram.send (.addField key field text)) v (.ok true)
      { v with store := v.store.setField key field text } := by
  have hsend : Runs (StoreProgram.send (.addField key field text)) v _ _ :=
    Runs.send fun _ => rfl
  simp only [Command.perform, Store.hasField, h, Store.addField_of_field?_eq_none h] at hsend
  exact hsend

/-! ## One document -/

section

variable {keys : Keys} {v : View}

/-- An experiment whose document is under its id is found there. -/
theorem runs_get_document {id page : String} (hid : Text.isBlank id = false)
    (hpage : Text.isBlank page = false) {e : Experiment}
    (hfield : v.store.field? (keys.page page) id = some e.render) (hsized : e.Sized)
    (hfinite : e.Finite) : Runs (Experiments.get keys id page) v (.ok (some e)) v := by
  have hfound : Runs (StoreProgram.send (.readField (keys.page page) id)) v
      (.ok (some e.render)) v := by
    rw [← hfield]
    exact Runs.send fun _ => rfl
  have htext : (some e.render).filter (· != "") = some e.render := by simp [e.render_ne_empty]
  have hload := runs_load e.render v
  rw [decode_render hsized hfinite] at hload
  refine Runs.bind (Runs.require hid) (Runs.bind (Runs.require hpage) (Runs.bind hfound ?_))
  rw [htext]
  exact Runs.bind hload (Runs.done _)

/-- Whatever is under the id of an experiment is replaced by its document. -/
theorem runs_update_document {e : Experiment} (hid : Text.isBlank e.id = false)
    (hpage : Text.isBlank e.page = false)
    (hthere : v.store.hasField (keys.page e.page) e.id = true) :
    Runs (Experiments.update keys (some e)) v (.ok { e with updatedAt := .utc v.clock })
      { v with
        store := v.store.setField (keys.page e.page) e.id
          ({ e with updatedAt := .utc v.clock } : Experiment).render } := by
  have hlook : Runs (StoreProgram.send (.hasField (keys.page e.page) e.id)) v (.ok true) v := by
    rw [← hthere]
    exact Runs.send fun _ => rfl
  refine Runs.bind (Runs.done e) (Runs.bind (Runs.require hid) (Runs.bind (Runs.require hpage) ?_))
  refine Runs.bind hlook (Runs.bind Runs.now ?_)
  exact Runs.bind (Runs.send fun _ => rfl) (Runs.bind (Runs.report _) (Runs.done _))

/-- Whatever is under an id is removed. -/
theorem runs_delete_document {id page : String} (hid : Text.isBlank id = false)
    (hpage : Text.isBlank page = false) :
    Runs (Experiments.delete keys id page) v (.ok (v.store.hasField (keys.page page) id))
      { v with store := v.store.removeField (keys.page page) id } := by
  refine Runs.bind (Runs.require hid) (Runs.bind (Runs.require hpage) ?_)
  exact Runs.bind (Runs.send fun _ => rfl) (Runs.bind (Runs.report _) (Runs.done _))

end

/-! ## The calls -/

section

variable {keys : Keys} {v : View} {c : Catalogue}

theorem runs_idFor (hissued : v.issued = c.issued) (e : Experiment) :
    Runs (Experiments.idFor e) v (.ok (c.idFor e)) { v with issued := (c.taking e).issued } := by
  unfold Experiments.idFor Catalogue.idFor Catalogue.taking
  split_ifs
  · rw [← hissued]
    exact Runs.newId
  · rw [← hissued]
    exact Runs.done e.id

theorem entries_taking (c : Catalogue) (e : Experiment) : (c.taking e).entries = c.entries := by
  unfold Catalogue.taking
  split_ifs <;> rfl

/-- Creating an experiment does to the store what it does to the catalogue. -/
theorem runs_create (h : Models keys v c) {experiment : Option Experiment}
    (hsized : ∀ e ∈ experiment, e.Sized) :
    ∃ v', Runs (Experiments.create keys experiment) v (c.create v.clock experiment).1 v' ∧
      Models keys v' (c.create v.clock experiment).2 := by
  match experiment, hsized with
  | none, _ => exact ⟨v, Runs.bind_error (Runs.fail _), h⟩
  | some e, hsized =>
    simp only [Catalogue.create]
    by_cases hpage : Text.isBlank e.page = true
    · rw [if_pos hpage]
      exact ⟨v, Runs.bind (Runs.done e) (Runs.bind_error (Runs.require_missing hpage)), h⟩
    rw [if_neg hpage]
    have hpage' := Bool.eq_false_iff.2 hpage
    have hfield := h.holds.field e.page (c.idFor e)
    cases hentry : c.entries e.page (c.idFor e) with
    | some old =>
      rw [hentry] at hfield
      have hsend := runs_addField_taken (v := { v with issued := (c.taking e).issued }) hfield
        (c.stored v.clock e).render
      refine ⟨{ v with issued := (c.taking e).issued }, ?_, ?_, rfl⟩
      · refine Runs.bind (Runs.done e) (Runs.bind (Runs.require hpage') (Runs.bind Runs.now ?_))
        refine Runs.bind (runs_idFor h.issued e) (Runs.bind hsend ?_)
        exact Runs.bind (Runs.report _) (Runs.fail _)
      · rw [entries_taking]
        exact h.holds
    | none =>
      rw [hentry] at hfield
      have hstored : (c.stored v.clock e).Sized := hsized e rfl
      have hsend := runs_addField_free (v := { v with issued := (c.taking e).issued }) hfield
        (c.stored v.clock e).render
      refine ⟨⟨v.clock, (c.taking e).issued, v.store.setField (keys.page e.page) (c.idFor e)
        (c.stored v.clock e).render⟩, ?_, ?_, rfl⟩
      · refine Runs.bind (Runs.done e) (Runs.bind (Runs.require hpage') (Runs.bind Runs.now ?_))
        refine Runs.bind (runs_idFor h.issued e) (Runs.bind hsend ?_)
        exact Runs.bind (Runs.report _) (Runs.done _)
      · rw [Catalogue.set, entries_taking]
        exact h.holds.setEntry hstored

/-- Updating an experiment does to the store what it does to the catalogue. -/
theorem runs_update (h : Models keys v c) {experiment : Option Experiment}
    (hsized : ∀ e ∈ experiment, e.Sized) :
    ∃ v', Runs (Experiments.update keys experiment) v (c.update v.clock experiment).1 v' ∧
      Models keys v' (c.update v.clock experiment).2 := by
  match experiment, hsized with
  | none, _ => exact ⟨v, Runs.bind_error (Runs.fail _), h⟩
  | some e, hsized =>
    simp only [Catalogue.update]
    by_cases hid : Text.isBlank e.id = true
    · rw [if_pos hid]
      exact ⟨v, Runs.bind (Runs.done e) (Runs.bind_error (Runs.require_missing hid)), h⟩
    rw [if_neg hid]
    by_cases hpage : Text.isBlank e.page = true
    · rw [if_pos hpage]
      exact ⟨v, Runs.bind (Runs.done e) (Runs.bind (Runs.require (Bool.eq_false_iff.2 hid))
        (Runs.bind_error (Runs.require_missing hpage))), h⟩
    rw [if_neg hpage]
    cases hentry : c.entries e.page e.id with
    | none =>
      have hthere : Runs (StoreProgram.send (.hasField (keys.page e.page) e.id)) v (.ok false) v := by
        have hfield := h.holds.hasField_eq e.page e.id
        rw [hentry] at hfield
        rw [← (show v.store.hasField (keys.page e.page) e.id = false from hfield)]
        exact Runs.send fun _ => rfl
      refine ⟨v, ?_, h⟩
      refine Runs.bind (Runs.done e) (Runs.bind (Runs.require (Bool.eq_false_iff.2 hid)) ?_)
      refine Runs.bind (Runs.require (Bool.eq_false_iff.2 hpage)) (Runs.bind hthere ?_)
      exact Runs.bind (Runs.report _) (Runs.fail _)
    | some old =>
      have hfield : v.store.hasField (keys.page e.page) e.id = true := by
        rw [h.holds.hasField_eq, hentry]
        rfl
      exact ⟨_, runs_update_document (Bool.eq_false_iff.2 hid) (Bool.eq_false_iff.2 hpage) hfield,
        h.holds.setEntry (e := { e with updatedAt := .utc v.clock }) (hsized e rfl), h.issued⟩

/-- Deleting an experiment does to the store what it does to the catalogue. -/
theorem runs_delete (h : Models keys v c) (id page : String) :
    ∃ v', Runs (Experiments.delete keys id page) v (c.delete id page).1 v' ∧
      Models keys v' (c.delete id page).2 := by
  unfold Catalogue.delete
  by_cases hid : Text.isBlank id = true
  · rw [if_pos hid]
    exact ⟨v, Runs.bind_error (Runs.require_missing hid), h⟩
  rw [if_neg hid]
  by_cases hpage : Text.isBlank page = true
  · rw [if_pos hpage]
    exact ⟨v, Runs.bind (Runs.require (Bool.eq_false_iff.2 hid))
      (Runs.bind_error (Runs.require_missing hpage)), h⟩
  rw [if_neg hpage]
  refine ⟨{ v with store := v.store.removeField (keys.page page) id }, ?_,
    h.holds.removeEntry page id, h.issued⟩
  rw [← h.holds.hasField_eq]
  exact runs_delete_document (Bool.eq_false_iff.2 hid) (Bool.eq_false_iff.2 hpage)

/-! ## Reading -/

/-- Looking an experiment up gives the entry as it was written. -/
theorem runs_get (h : Models keys v c) {id page : String}
    (hfinite : ∀ e ∈ c.entries page id, e.Finite) :
    Runs (Experiments.get keys id page) v (c.get id page) v := by
  unfold Catalogue.get
  by_cases hid : Text.isBlank id = true
  · rw [if_pos hid]
    exact Runs.bind_error (Runs.require_missing hid)
  rw [if_neg hid]
  by_cases hpage : Text.isBlank page = true
  · rw [if_pos hpage]
    exact Runs.bind (Runs.require (Bool.eq_false_iff.2 hid))
      (Runs.bind_error (Runs.require_missing hpage))
  rw [if_neg hpage]
  have hfield := h.holds.field page id
  cases hentry : c.entries page id with
  | none =>
    rw [hentry] at hfield
    have hfound : Runs (StoreProgram.send (.readField (keys.page page) id)) v (.ok none) v := by
      rw [← (show v.store.field? (keys.page page) id = none from hfield)]
      exact Runs.send fun _ => rfl
    refine Runs.bind (Runs.require (Bool.eq_false_iff.2 hid)) ?_
    refine Runs.bind (Runs.require (Bool.eq_false_iff.2 hpage)) (Runs.bind hfound ?_)
    exact Runs.bind (Runs.report _) (Runs.done none)
  | some e =>
    rw [hentry] at hfield
    exact runs_get_document (Bool.eq_false_iff.2 hid) (Bool.eq_false_iff.2 hpage) hfield
      (h.holds.sized hentry) (hfinite e hentry)

/-- Listing a page gives the listing of its hash. -/
theorem runs_active_hash {page : String} (hpage : Text.isBlank page = false) :
    Runs (Experiments.active keys page none) v
      (listingOf (.utc v.clock) page (.ok (v.store.hash (keys.page page)))) v := by
  have hall := runs_loadAll (Experiments.documents (v.store.hash (keys.page page))) v
  refine Runs.bind (Runs.require hpage) (Runs.bind (Runs.ask (fun _ => rfl) (Runs.done _)) ?_)
  dsimp only [listingOf]
  cases hdecode : (Experiments.documents (v.store.hash (keys.page page))).mapM
      (Experiments.decode (.utc v.clock)) with
  | error error =>
    rw [hdecode] at hall
    exact Runs.bind_error hall
  | ok all =>
    rw [hdecode] at hall
    exact Runs.bind hall (Runs.bind (Runs.report _) (Runs.done _))

/-- Listing a page gives the listing of its entries. -/
theorem runs_active (h : Models keys v c) {page : String} (hpage : Text.isBlank page = false)
    (hfinite : ∀ id, ∀ e ∈ c.entries page id, e.Finite) :
    ∃ listed, Runs (Experiments.active keys page none) v (.ok listed) v ∧
      c.entries.Lists page listed := by
  obtain ⟨all, htexts, hmem, hids⟩ := h.holds.exists_documents page
  have hlisting : listingOf (.utc v.clock) page (.ok (v.store.hash (keys.page page))) =
      .ok (Experiments.listing page all) := by
    refine listingOf_eq_ok_iff.2 ⟨all, ?_, rfl⟩
    rw [htexts, List.forall₂_map_left_iff, List.forall₂_same]
    intro e he
    obtain ⟨id, hid⟩ := (hmem e).1 he
    exact decode_eq_ok_iff.1 (decode_render (h.holds.sized hid) (hfinite id e hid))
  have hruns := @runs_active_hash keys v page hpage
  rw [hlisting] at hruns
  refine ⟨Experiments.listing page all, hruns, pairwise_listing page hids, ?_⟩
  intro e
  rw [mem_listing, hmem]
  constructor
  · intro hparts
    obtain ⟨hentry, hactive, -⟩ := hparts
    exact ⟨hactive, hentry⟩
  · intro hparts
    obtain ⟨hactive, id, hid⟩ := hparts
    exact ⟨⟨id, hid⟩, hactive, h.holds.onPage hid⟩

/-- A page with an entry that cannot be read back is not listed at all. -/
theorem runs_active_error (h : Models keys v c) {page : String} (hpage : Text.isBlank page = false)
    {id : String} {e : Experiment} (hentry : c.entries page id = some e) (hfinite : ¬e.Finite) :
    ∃ faults, Runs (Experiments.active keys page none) v (.error (.invalidDocument faults)) v := by
  obtain ⟨all, htexts, hmem, -⟩ := h.holds.exists_documents page
  have hruns := @runs_active_hash keys v page hpage
  cases hlisting : listingOf (.utc v.clock) page (.ok (v.store.hash (keys.page page))) with
  | ok listed =>
    obtain ⟨read, hread, -⟩ := listingOf_eq_ok_iff.1 hlisting
    rw [htexts, List.forall₂_map_left_iff] at hread
    obtain ⟨d, -, hd⟩ := exists_of_mem_forall₂ hread.flip ((hmem e).2 ⟨id, hentry⟩)
    exact absurd ((Experiment.ofText_render_eq_value (h.holds.sized hentry)).1 hd).1 hfinite
  | error error =>
    obtain ⟨faults, rfl⟩ := exists_faults_of_listingOf hlisting
    rw [hlisting] at hruns
    exact ⟨faults, hruns⟩

end

end SplitTest
