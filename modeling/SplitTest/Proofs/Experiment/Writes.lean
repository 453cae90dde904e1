import Mathlib
import SplitTest.Experiment.Repository
import SplitTest.Proofs.Store.Fields
import SplitTest.Proofs.Store.Questions

/-
  What a call that writes can do.
  The store may fail at any command of the call. One lemma for each call says all that can come of
  it: an error, and then the store is as it was, or the one write of the call, and then what was
  there before it. Everything about writing calls is derived from these lemmas.
-/

namespace SplitTest

open Experiments

variable {keys : Keys} {experiment : Option Experiment} {s s' : Store}

theorem mem_of_exec_given {e : Experiment} (h : Exec (given experiment) s (.ok e) s') :
    e ∈ experiment := by
  cases experiment with
  | none => cases h
  | some d =>
    cases h
    rfl

/-- Adding a field sets it where it is not there, or finds it there and leaves the store as it
    was. -/
theorem added_of_send {key field text : String} {added : Bool}
    (h : Exec (StoreProgram.send (.addField key field text)) s (.ok added) s') :
    (added = true ∧ s.field? key field = none ∧ s' = s.setField key field text) ∨
      (added = false ∧ s' = s) := by
  obtain ⟨rfl, hs'⟩ := h.send_ok
  cases hfield : s.field? key field with
  | none =>
    refine Or.inl ⟨?_, rfl, hs'.trans (Store.addField_of_field?_eq_none hfield text)⟩
    simp only [Command.perform, Store.hasField, hfield, Option.isSome_none, Bool.not_false]
  | some old =>
    refine Or.inr ⟨?_, hs'.trans (Store.addField_of_field?_eq_some hfield text)⟩
    simp only [Command.perform, Store.hasField, hfield, Option.isSome_some, Bool.not_true]

/-- A creation that succeeds sets the field of the new experiment, which was not there. -/
theorem create_cases {r : Except Error Experiment} (h : Exec (create keys experiment) s r s') :
    (∃ e, r = .error e ∧ s' = s) ∨
      ∃ given stored now, given ∈ experiment ∧ r = .ok stored ∧
        stored = { given with id := stored.id, createdAt := .utc now, updatedAt := .utc now } ∧
        s.field? (keys.page stored.page) stored.id = none ∧
        s' = s.setField (keys.page stored.page) stored.id stored.render := by
  unfold create at h
  rcases (silent_given experiment).keeps.bind_cases h with hfail | ⟨e, hgiven, h1⟩
  · exact Or.inl hfail
  rcases (Keeps.require _ _).bind_cases h1 with hfail | ⟨_, -, h2⟩
  · exact Or.inl hfail
  rcases Keeps.now.bind_cases h2 with hfail | ⟨now, -, h3⟩
  · exact Or.inl hfail
  rcases (silent_idFor e).keeps.bind_cases h3 with hfail | ⟨id, -, h4⟩
  · exact Or.inl hfail
  rcases h4.bind_cases with ⟨err, hsend, rfl⟩ | ⟨added, mid, hsend, h5⟩
  · exact Or.inl ⟨err, rfl, hsend.send_error⟩
  rcases added_of_send hsend with ⟨rfl, hnone, rfl⟩ | ⟨rfl, rfl⟩
  · cases h5.of_report_bind
    exact Or.inr ⟨e, _, now, mem_of_exec_given hgiven, rfl, rfl, hnone, rfl⟩
  · cases h5.of_report_bind
    exact Or.inl ⟨_, rfl, rfl⟩

/-- An update that succeeds sets the field of the experiment, which was there. -/
theorem update_cases {r : Except Error Experiment} (h : Exec (update keys experiment) s r s') :
    (∃ e, r = .error e ∧ s' = s) ∨
      ∃ given stored now, given ∈ experiment ∧ r = .ok stored ∧
        stored = { given with updatedAt := .utc now } ∧
        (∃ old, s.field? (keys.page stored.page) stored.id = some old) ∧
        s' = s.setField (keys.page stored.page) stored.id stored.render := by
  unfold update at h
  rcases (silent_given experiment).keeps.bind_cases h with hfail | ⟨e, hgiven, h1⟩
  · exact Or.inl hfail
  rcases (Keeps.require _ _).bind_cases h1 with hfail | ⟨_, -, h2⟩
  · exact Or.inl hfail
  rcases (Keeps.require _ _).bind_cases h2 with hfail | ⟨_, -, h3⟩
  · exact Or.inl hfail
  rcases (Keeps.send fun _ => rfl).bind_cases h3 with hfail | ⟨there, hlook, h4⟩
  · exact Or.inl hfail
  cases there with
  | false =>
    cases h4.of_report_bind
    exact Or.inl ⟨_, rfl, rfl⟩
  | true =>
    have hthere : s.hasField (keys.page e.page) e.id = true := hlook.send_ok.1.symm
    rcases Keeps.now.bind_cases h4 with hfail | ⟨now, -, h5⟩
    · exact Or.inl hfail
    rcases h5.bind_cases with ⟨err, hsend, rfl⟩ | ⟨_, mid, hsend, h6⟩
    · exact Or.inl ⟨err, rfl, hsend.send_error⟩
    cases h6.of_report_bind
    exact Or.inr ⟨e, _, now, mem_of_exec_given hgiven, rfl, rfl,
      Option.isSome_iff_exists.1 hthere, hsend.send_ok.2⟩

/-- A deletion that succeeds removes the field, and says whether it was there. -/
theorem delete_cases {id page : String} {r : Except Error Bool}
    (h : Exec (delete keys id page) s r s') :
    (∃ e, r = .error e ∧ s' = s) ∨
      r = .ok (s.hasField (keys.page page) id) ∧ s' = s.removeField (keys.page page) id := by
  unfold delete at h
  rcases (Keeps.require _ _).bind_cases h with hfail | ⟨_, -, h1⟩
  · exact Or.inl hfail
  rcases (Keeps.require _ _).bind_cases h1 with hfail | ⟨_, -, h2⟩
  · exact Or.inl hfail
  rcases h2.bind_cases with ⟨err, hsend, rfl⟩ | ⟨there, mid, hsend, h3⟩
  · exact Or.inl ⟨err, rfl, hsend.send_error⟩
  cases h3.of_report_bind
  rw [hsend.send_ok.1, hsend.send_ok.2]
  exact Or.inr ⟨rfl, rfl⟩

end SplitTest
