import Mathlib
import SplitTest.Proofs.Experiment.Catalogue
import SplitTest.Proofs.Experiment.Writes

/-
  Which pages can be read.
  A store is `Reached` with a map of entries when calls of the repository led to it, each of them
  on an experiment that was read from a document, and any of them refused at any command. Such a
  store holds the entries (`Reached.holds`): `Wrote` says once what a call leaves behind, and the
  rest is an induction on the calls. A page of it is refused exactly when an entry of the page has
  a double that is not finite (`page_refused_iff`). A document may have such a double, but it is
  written as `null`, and `null` is not read as a value of a configuration.
-/

namespace SplitTest

open Experiments

/-! ## One write -/

/-- What is left behind when an experiment is to be stored: its document, with any id and any
    timestamps, or an error and nothing else. -/
inductive Wrote (keys : Keys) (experiment : Option Experiment) (s : Store) :
    Except Error Experiment → Store → Prop
  | stored {given e : Experiment} (hgiven : given ∈ experiment)
      (hsame : e = { given with id := e.id, createdAt := e.createdAt, updatedAt := e.updatedAt }) :
      Wrote keys experiment s (.ok e) (s.setField (keys.page e.page) e.id e.render)
  | rejected (e : Error) : Wrote keys experiment s (.error e) s

section

variable {keys : Keys} {experiment : Option Experiment} {s s' : Store}

/-- Creating an experiment writes it where there is none, or leaves the store as it was. -/
theorem wrote_of_create {r : Except Error Experiment}
    (h : Exec (create keys experiment) s r s') : Wrote keys experiment s r s' := by
  rcases create_cases h with ⟨e, rfl, rfl⟩ | ⟨given, stored, now, hgiven, rfl, hsame, -, rfl⟩
  · exact .rejected e
  · exact .stored hgiven (by rw [hsame])

/-- Updating an experiment writes it where there is one, or leaves the store as it was. -/
theorem wrote_of_update {r : Except Error Experiment}
    (h : Exec (update keys experiment) s r s') : Wrote keys experiment s r s' := by
  rcases update_cases h with ⟨e, rfl, rfl⟩ | ⟨given, stored, now, hgiven, rfl, hsame, -, rfl⟩
  · exact .rejected e
  · exact .stored hgiven (by rw [hsame])

/-- Deleting removes the field, or leaves the store as it was. -/
theorem removed_of_delete {id page : String} {r : Except Error Bool}
    (h : Exec (delete keys id page) s r s') :
    (∃ there, r = .ok there ∧ s' = s.removeField (keys.page page) id) ∨
      ∃ e, r = .error e ∧ s' = s := by
  rcases delete_cases h with hfail | ⟨hr, hs'⟩
  · exact Or.inr hfail
  · exact Or.inl ⟨_, hr, hs'⟩

end

/-! ## Any number of writes -/

namespace Entries

/-- The map after an experiment was to be stored. -/
def written (m : Entries) : Except Error Experiment → Entries
  | .ok e => m.set e.page e.id (some e)
  | .error _ => m

/-- The map after an entry was to be removed. -/
def removed (m : Entries) (page id : String) : Except Error Bool → Entries
  | .ok _ => m.set page id none
  | .error _ => m

end Entries

/-- The contents of a store that was empty once and changed by the repository only, and what was
    stored in it. Any call may fail at any of its commands, whatever the clock shows. -/
inductive Reached (keys : Keys) : Store → Entries → Prop
  | empty : Reached keys .empty Entries.empty
  | create {s s' : Store} {m : Entries} {experiment : Option Experiment}
      {r : Except Error Experiment} (h : Reached keys s m)
      (haccepted : ∀ e ∈ experiment, e.Accepted)
      (hexec : Exec (create keys experiment) s r s') : Reached keys s' (m.written r)
  | update {s s' : Store} {m : Entries} {experiment : Option Experiment}
      {r : Except Error Experiment} (h : Reached keys s m)
      (haccepted : ∀ e ∈ experiment, e.Accepted)
      (hexec : Exec (update keys experiment) s r s') : Reached keys s' (m.written r)
  | delete {s s' : Store} {m : Entries} {id page : String} {r : Except Error Bool}
      (h : Reached keys s m) (hexec : Exec (delete keys id page) s r s') :
      Reached keys s' (m.removed page id r)

section

variable {keys : Keys} {s s' : Store} {m : Entries}

/-- One write keeps the store and the map together. -/
theorem Holds.of_wrote (h : Holds keys s m) {experiment : Option Experiment}
    (haccepted : ∀ e ∈ experiment, e.Accepted) {r : Except Error Experiment}
    (hwrote : Wrote keys experiment s r s') : Holds keys s' (m.written r) := by
  cases hwrote with
  | stored hgiven hsame =>
    refine h.setEntry ?_
    rw [hsame]
    exact (haccepted _ hgiven).sized
  | rejected e => exact h

theorem Holds.of_delete (h : Holds keys s m) {id page : String} {r : Except Error Bool}
    (hexec : Exec (delete keys id page) s r s') : Holds keys s' (m.removed page id r) := by
  rcases removed_of_delete hexec with ⟨there, rfl, rfl⟩ | ⟨e, rfl, rfl⟩
  · exact h.removeEntry page id
  · exact h

/-- Whatever was called and whatever failed, the store holds what was stored in it. -/
theorem Reached.holds (h : Reached keys s m) : Holds keys s m := by
  induction h with
  | empty => exact holds_empty keys
  | create _ haccepted hexec ih => exact ih.of_wrote haccepted (wrote_of_create hexec)
  | update _ haccepted hexec ih => exact ih.of_wrote haccepted (wrote_of_update hexec)
  | delete _ hexec ih => exact ih.of_delete hexec

/-! ## Reading a page -/

variable {page : String} {w : World App}

theorem models_of_holds (h : Holds keys w.state.server.store m) :
    Models keys ⟨w.clock, w.issued, w.state.server.store⟩ ⟨w.issued, m⟩ := ⟨h, rfl⟩

/-- A page with an entry that is not finite is refused as a whole. -/
theorem active_eq_error (h : Holds keys w.state.server.store m) (hw : w.Healthy)
    (hpage : Text.isBlank page = false) {id : String} {e : Experiment}
    (hentry : m page id = some e) (hfinite : ¬e.Finite) :
    ∃ faults, (App.runStore (active keys page none) w).1 = .error (.invalidDocument faults) := by
  obtain ⟨faults, hruns⟩ := runs_active_error (models_of_holds h) hpage hentry hfinite
  exact ⟨faults, (hruns w ⟨hw, rfl, rfl, rfl⟩).1⟩

/-- A page with finite entries only is listed. -/
theorem active_eq_ok (h : Holds keys w.state.server.store m) (hw : w.Healthy)
    (hpage : Text.isBlank page = false) (hfinite : ∀ id, ∀ e ∈ m page id, e.Finite) :
    ∃ listed, (App.runStore (active keys page none) w).1 = .ok listed ∧ m.Lists page listed := by
  obtain ⟨listed, hruns, hlists⟩ := runs_active (models_of_holds h) hpage hfinite
  exact ⟨listed, (hruns w ⟨hw, rfl, rfl, rfl⟩).1, hlists⟩

/-- Whatever the repository was called with and whatever failed on the way: on a store that works, a
    page is refused exactly when an experiment with a double that is not finite is on it. -/
theorem page_refused_iff (h : Reached keys s m) (hpage : Text.isBlank page = false)
    (hw : w.Healthy) (hstore : w.state.server.store = s) :
    (∃ faults, (App.runStore (active keys page none) w).1 = .error (.invalidDocument faults)) ↔
      ∃ id e, m page id = some e ∧ ¬e.Finite := by
  have hholds : Holds keys w.state.server.store m := by
    rw [hstore]
    exact h.holds
  constructor
  · intro hparts
    obtain ⟨faults, hfaults⟩ := hparts
    by_contra hnone
    have hfinite : ∀ id, ∀ e ∈ m page id, e.Finite := by
      intro id e he
      by_contra hnot
      exact hnone ⟨id, e, he, hnot⟩
    obtain ⟨listed, hlisted, -⟩ := active_eq_ok hholds hw hpage hfinite
    rw [hlisted] at hfaults
    cases hfaults
  · intro hparts
    obtain ⟨id, e, hentry, hfinite⟩ := hparts
    exact active_eq_error hholds hw hpage hentry hfinite

end

/-! ## A page that is refused -/

/-- The text of an experiment with an infinite value. -/
def boundlessText : String :=
  "\x7b\"id\":\"inf\",\"page\":\"landing\",\"variants\":[\x7b\"id\":\"v\"," ++
  "\"config\":\x7b\"a\":Infinity\x7d\x7d]\x7d"

/-- That experiment, read at some time. -/
def boundless (now : Timestamp) : Experiment :=
  ⟨"inf", "", "landing", true, [⟨"v", "", 0, .ofList [("a", .real (.infinite false))]⟩], now, now⟩

theorem ofText_boundlessText (now : Timestamp) :
    Experiment.ofText now boundlessText = .value (boundless now) := by
  rfl

theorem boundless_not_finite (now : Timestamp) : ¬(boundless now).Finite := by
  intro h
  have hvalue := h _ List.mem_cons_self ("a", .real (.infinite false)) List.mem_cons_self
  cases hvalue

/-- The application after it created that experiment. -/
def boundlessWorld : World App :=
  (App.runStore (create ⟨""⟩ (some (boundless (.utc 0)))) (App.start Settings.defaults true 0)).2

theorem healthy_boundlessWorld : boundlessWorld.Healthy := ⟨rfl, rfl⟩

/-- It was created as it was given. -/
theorem reached_boundlessWorld : Reached ⟨""⟩ boundlessWorld.state.server.store
    (Entries.empty.set "landing" "inf" (some (boundless (.utc 0)))) := by
  have haccepted : ∀ e ∈ some (boundless (.utc 0)), e.Accepted := by
    rintro _ ⟨⟩
    exact ⟨.utc 0, boundlessText, ofText_boundlessText _⟩
  exact .create .empty haccepted (exec_runStore _ (App.start Settings.defaults true 0))

theorem page_refused_iff_boundless :
    Reached ⟨""⟩ boundlessWorld.state.server.store
        (Entries.empty.set "landing" "inf" (some (boundless (.utc 0)))) ∧
      Text.isBlank "landing" = false ∧ boundlessWorld.Healthy ∧
      ∃ faults, (App.runStore (active ⟨""⟩ "landing" none) boundlessWorld).1 =
        .error (.invalidDocument faults) := by
  refine ⟨reached_boundlessWorld, rfl, healthy_boundlessWorld, ?_⟩
  exact (page_refused_iff reached_boundlessWorld rfl healthy_boundlessWorld rfl).2
    ⟨"inf", _, rfl, boundless_not_finite _⟩

/-- Writes that are accepted can make a page unreadable. -/
theorem not_forall_page_listed : ¬∀ (keys : Keys) (s : Store) (m : Entries), Reached keys s m →
    ∀ page, Text.isBlank page = false → ∀ w : World App, w.Healthy → w.state.server.store = s →
      ∀ faults, (App.runStore (active keys page none) w).1 ≠ .error (.invalidDocument faults) := by
  intro h
  have hentry : Entries.empty.set "landing" "inf" (some (boundless (.utc 0))) "landing" "inf" =
      some (boundless (.utc 0)) := rfl
  obtain ⟨faults, hfaults⟩ := active_eq_error reached_boundlessWorld.holds healthy_boundlessWorld
    rfl hentry (boundless_not_finite _)
  exact h _ _ _ reached_boundlessWorld "landing" rfl _ healthy_boundlessWorld rfl faults hfaults

end SplitTest
