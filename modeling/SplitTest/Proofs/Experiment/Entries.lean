import Mathlib
import SplitTest.Experiment.Repository
import SplitTest.Proofs.Experiment.Codec
import SplitTest.Proofs.Store.Fields

/-
  What the store says about experiments.
  `Entries` is a map from page and id to experiments. A store `Holds` such a map when every field
  of a page's hash is the document of the entry, and every entry is on its page under its id. The
  map changes as the store does (`Holds.setEntry`, `Holds.removeEntry`), the documents of a page
  are those of its entries (`Holds.exists_documents`), and `listing` puts the running ones among
  them in order (`pairwise_listing`).
-/

namespace SplitTest

/-- Experiments by page and id. -/
abbrev Entries := String → String → Option Experiment

namespace Entries

def empty : Entries := fun _ _ => none

/-- The map with one entry changed. -/
def set (m : Entries) (page id : String) (e : Option Experiment) : Entries :=
  fun p i => if p = page ∧ i = id then e else m p i

/-- The order of a listing: by the moment of creation, then by id. -/
def CreatedBefore (a b : Experiment) : Prop :=
  a.createdAt.instant < b.createdAt.instant ∨
    a.createdAt.instant = b.createdAt.instant ∧ a.id < b.id

/-- The running experiments of a page, each of them once and in order. -/
structure Lists (m : Entries) (page : String) (listed : List Experiment) : Prop where
  ordered : listed.Pairwise CreatedBefore
  mem : ∀ e, e ∈ listed ↔ e.isActive = true ∧ ∃ id, m page id = some e

end Entries

open Entries

/-! ## Listings -/

theorem not_createdBefore_self (e : Experiment) : ¬CreatedBefore e e := by
  rintro (h | ⟨-, h⟩)
  · exact lt_irrefl _ h
  · exact lt_irrefl _ h

theorem createdBefore_asymm {a b : Experiment} (hab : CreatedBefore a b)
    (hba : CreatedBefore b a) : False := by
  rcases hab with hab | ⟨heq, hab⟩ <;> rcases hba with hba | ⟨heq', hba⟩
  · exact lt_asymm hab hba
  · exact hab.ne heq'.symm
  · exact hba.ne heq.symm
  · exact lt_asymm hab hba

/-- A page has one listing. -/
theorem Entries.Lists.unique {m : Entries} {page : String} {as bs : List Experiment}
    (ha : m.Lists page as) (hb : m.Lists page bs) : as = bs := by
  have hnodup : ∀ cs : List Experiment, cs.Pairwise CreatedBefore → cs.Nodup := by
    intro cs h
    refine List.Pairwise.imp ?_ h
    rintro a _ hab rfl
    exact not_createdBefore_self a hab
  have hperm : as.Perm bs := by
    rw [List.perm_ext_iff_of_nodup (hnodup as ha.ordered) (hnodup bs hb.ordered)]
    intro e
    rw [ha.mem, hb.mem]
  exact hperm.eq_of_pairwise (fun _ _ _ _ hab hba => (createdBefore_asymm hab hba).elim)
    ha.ordered hb.ordered

theorem listedBefore_iff (a b : Experiment) :
    Experiments.listedBefore a b = true ↔ a.createdAt.instant < b.createdAt.instant ∨
      a.createdAt.instant = b.createdAt.instant ∧ a.id ≤ b.id := by
  simp [Experiments.listedBefore]

theorem listedBefore_trans (a b c : Experiment) (hab : Experiments.listedBefore a b = true)
    (hbc : Experiments.listedBefore b c = true) : Experiments.listedBefore a c = true := by
  rw [listedBefore_iff] at hab hbc ⊢
  rcases hab with hab | ⟨heq, hab⟩ <;> rcases hbc with hbc | ⟨heq', hbc⟩
  · exact Or.inl (hab.trans hbc)
  · exact Or.inl (hab.trans_eq heq')
  · exact Or.inl (heq.trans_lt hbc)
  · exact Or.inr ⟨heq.trans heq', le_trans hab hbc⟩

theorem listedBefore_total (a b : Experiment) :
    (Experiments.listedBefore a b || Experiments.listedBefore b a) = true := by
  rw [Bool.or_eq_true, listedBefore_iff, listedBefore_iff]
  rcases lt_trichotomy a.createdAt.instant b.createdAt.instant with h | h | h
  · exact Or.inl (Or.inl h)
  · rcases le_total a.id b.id with hid | hid
    · exact Or.inl (Or.inr ⟨h, hid⟩)
    · exact Or.inr (Or.inr ⟨h.symm, hid⟩)
  · exact Or.inr (Or.inl h)

/-- Where no id is repeated, sorting leaves no ties. -/
theorem pairwise_listing (page : String) {all : List Experiment}
    (hids : (all.map Experiment.id).Nodup) :
    (Experiments.listing page all).Pairwise CreatedBefore := by
  have hsorted := List.pairwise_mergeSort listedBefore_trans listedBefore_total
    (all.filter (Experiments.runsOn page))
  have hperm := List.mergeSort_perm (all.filter (Experiments.runsOn page)) Experiments.listedBefore
  have hdistinct : (Experiments.listing page all).Pairwise fun a b => a.id ≠ b.id := by
    have hfilter : (all.filter (Experiments.runsOn page)).Pairwise fun a b => a.id ≠ b.id :=
      (List.pairwise_map.1 hids).filter _
    exact (hperm.pairwise_iff fun h => Ne.symm h).2 hfilter
  refine (hsorted.and hdistinct).imp ?_
  rintro a b ⟨hle, hne⟩
  rcases (listedBefore_iff a b).1 hle with h | ⟨heq, hid⟩
  · exact Or.inl h
  · exact Or.inr ⟨heq, lt_of_le_of_ne hid hne⟩

theorem mem_listing {page : String} {all : List Experiment} {e : Experiment} :
    e ∈ Experiments.listing page all ↔ e ∈ all ∧ e.isActive = true ∧ e.page = page := by
  rw [Experiments.listing, List.mem_mergeSort, List.mem_filter, Experiments.runsOn,
    Bool.and_eq_true, beq_iff_eq]

/-! ## Stores and maps -/

/-- The store says exactly what the map says. -/
structure Holds (keys : Keys) (s : Store) (m : Entries) : Prop where
  distinct : s.Distinct
  field : ∀ page id, s.field? (keys.page page) id = (m page id).map Experiment.render
  onPage : ∀ {page id e}, m page id = some e → e.page = page
  underId : ∀ {page id e}, m page id = some e → e.id = id
  sized : ∀ {page id e}, m page id = some e → e.Sized

theorem holds_empty (keys : Keys) : Holds keys .empty Entries.empty where
  distinct := Store.distinct_empty
  field _ _ := rfl
  onPage h := by cases h
  underId h := by cases h
  sized h := by cases h

theorem exists_of_forall_mem {α β : Type} {R : α → β → Prop} {as : List α}
    (h : ∀ a ∈ as, ∃ b, R a b) : ∃ bs, List.Forall₂ R as bs := by
  induction as with
  | nil => exact ⟨[], .nil⟩
  | cons a as ih =>
    obtain ⟨b, hb⟩ := h a List.mem_cons_self
    obtain ⟨bs, hbs⟩ := ih fun a' ha' => h a' (List.mem_cons_of_mem a ha')
    exact ⟨b :: bs, .cons hb hbs⟩

namespace Holds

variable {keys : Keys} {s : Store} {m : Entries}

/-- Writing the document of an experiment on its page under its id changes that entry. -/
theorem setEntry (h : Holds keys s m) {e : Experiment} (he : e.Sized) :
    Holds keys (s.setField (keys.page e.page) e.id e.render) (m.set e.page e.id (some e)) := by
  refine ⟨h.distinct.setField _ _ _, ?_, ?_, ?_, ?_⟩
  · intro page id
    rw [Store.field?_setField, h.field, Entries.set]
    by_cases hentry : page = e.page ∧ id = e.id
    · rw [if_pos hentry, if_pos ⟨congrArg keys.page hentry.1, hentry.2⟩]
      rfl
    · rw [if_neg hentry, if_neg fun h => hentry ⟨keys.page_injective h.1, h.2⟩]
  all_goals
    intro page id d hd
    rw [Entries.set] at hd
    split_ifs at hd with hentry
  · cases hd
    exact hentry.1.symm
  · exact h.onPage hd
  · cases hd
    exact hentry.2.symm
  · exact h.underId hd
  · cases hd
    exact he
  · exact h.sized hd

theorem removeEntry (h : Holds keys s m) (page id : String) :
    Holds keys (s.removeField (keys.page page) id) (m.set page id none) := by
  refine ⟨h.distinct.removeField _ _, ?_, ?_, ?_, ?_⟩
  · intro p i
    rw [Store.field?_removeField h.distinct, h.field, Entries.set]
    by_cases hentry : p = page ∧ i = id
    · rw [if_pos hentry, if_pos ⟨congrArg keys.page hentry.1, hentry.2⟩]
      rfl
    · rw [if_neg hentry, if_neg fun h => hentry ⟨keys.page_injective h.1, h.2⟩]
  all_goals
    intro p i d hd
    rw [Entries.set] at hd
    split_ifs at hd
  · exact h.onPage hd
  · exact h.underId hd
  · exact h.sized hd

theorem hasField_eq (h : Holds keys s m) (page id : String) :
    s.hasField (keys.page page) id = (m page id).isSome := by
  rw [Store.hasField, h.field, Option.isSome_map]

/-- Every field of a page's hash is an entry of the page. -/
theorem exists_entries (h : Holds keys s m) (page : String) :
    ∃ all, List.Forall₂ (fun f e => m page f.1 = some e ∧ f.2 = e.render)
      (s.hash (keys.page page)) all := by
  apply exists_of_forall_mem
  intro f hf
  have hfield := (Table.get?_eq_some_iff (h.distinct (keys.page page))).2 hf
  have hmap := h.field page f.1
  rw [Store.field?, hfield] at hmap
  obtain ⟨e, he, hrender⟩ := Option.map_eq_some_iff.1 hmap.symm
  exact ⟨e, he, hrender.symm⟩

/-- Every entry of a page is a field of its hash. -/
theorem mem_names (h : Holds keys s m) {page id : String} {e : Experiment}
    (he : m page id = some e) : id ∈ (s.hash (keys.page page)).names := by
  rw [← not_not (a := id ∈ _), ← Table.get?_eq_none_iff]
  intro hnone
  have hfield := h.field page id
  rw [Store.field?, hnone, he] at hfield
  cases hfield

/-- The documents of a page are those of its entries, each of them once. -/
theorem exists_documents (h : Holds keys s m) (page : String) :
    ∃ all : List Experiment,
      Experiments.documents (s.hash (keys.page page)) = all.map Experiment.render ∧
      (∀ e, e ∈ all ↔ ∃ id, m page id = some e) ∧ (all.map Experiment.id).Nodup := by
  obtain ⟨all, hall⟩ := h.exists_entries page
  have htexts : (s.hash (keys.page page)).map Prod.snd = all.map Experiment.render := by
    rw [← List.forall₂_eq_eq_eq, List.forall₂_map_left_iff, List.forall₂_map_right_iff]
    exact hall.imp fun _ _ h => h.2
  have hids : (s.hash (keys.page page)).names = all.map Experiment.id := by
    rw [Table.names, ← List.forall₂_eq_eq_eq, List.forall₂_map_left_iff,
      List.forall₂_map_right_iff]
    exact hall.imp fun _ _ hf => (h.underId hf.1).symm
  refine ⟨all, ?_, ?_, ?_⟩
  · rw [Experiments.documents, htexts, List.filter_eq_self]
    intro text htext
    obtain ⟨e, -, rfl⟩ := List.mem_map.1 htext
    exact bne_iff_ne.2 e.render_ne_empty
  · intro e
    constructor
    · intro he
      obtain ⟨f, -, hf, -⟩ := exists_of_mem_forall₂ hall he
      exact ⟨f.1, hf⟩
    · intro hparts
      obtain ⟨id, he⟩ := hparts
      have hid := h.mem_names he
      rw [hids] at hid
      obtain ⟨d, hd, hdid⟩ := List.mem_map.1 hid
      obtain ⟨f, -, hf, -⟩ := exists_of_mem_forall₂ hall hd
      have hname : f.1 = id := (h.underId hf).symm.trans hdid
      rw [hname, he] at hf
      cases hf
      exact hd
  · rw [← hids]
    exact h.distinct _

end Holds

end SplitTest
