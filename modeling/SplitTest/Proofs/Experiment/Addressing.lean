import Mathlib
import SplitTest.Proofs.Experiment.Catalogue
import SplitTest.Proofs.Experiment.Writes

/-
  Whether an experiment can be addressed after it was created.
  Looking up, updating and deleting refuse a blank id. Creating gives an experiment a new id only if
  it has an empty one, and takes a blank id that is not empty as it is: such an experiment is in the
  store, and every later call for it is refused. All others can be looked up, updated and deleted
  (`created_addressable_iff`), over whatever else the store holds and whenever that happens.
-/

namespace SplitTest

open Experiments

/-! ## Ids -/

section

variable {keys : Keys} {w w' : World App} {given stored : Experiment}

/-- An experiment is stored under a new id if its own is empty, and under its own otherwise. -/
theorem id_of_create (h : App.runStore (create keys (some given)) w = (.ok stored, w')) :
    (given.id = "" → ∃ n, stored.id = idOfNumber n) ∧ (given.id ≠ "" → stored.id = given.id) := by
  obtain ⟨e, w₁, hgiven, h₁⟩ := Program.exists_of_run_bind h
  cases hgiven
  obtain ⟨_, w₂, -, h₂⟩ := Program.exists_of_run_bind h₁
  obtain ⟨now, w₃, -, h₃⟩ := Program.exists_of_run_bind h₂
  obtain ⟨id, w₄, hid, h₄⟩ := Program.exists_of_run_bind h₃
  obtain ⟨added, w₅, -, h₅⟩ := Program.exists_of_run_bind h₄
  have hstored : stored.id = id := by
    cases added with
    | true =>
      cases h₅
      rfl
    | false => cases h₅
  rw [hstored]
  unfold idFor at hid
  split_ifs at hid with hempty
  · cases hid
    exact ⟨fun _ => ⟨_, rfl⟩, fun hne => absurd hempty hne⟩
  · cases hid
    exact ⟨fun heq => absurd heq hempty, fun _ => rfl⟩

/-- The id of an experiment that was created is blank only if it was given a blank one that is not
    empty. -/
theorem isBlank_id_of_create (h : App.runStore (create keys (some given)) w = (.ok stored, w')) :
    Text.isBlank stored.id = false ↔ given.id = "" ∨ Text.isBlank given.id = false := by
  obtain ⟨hnew, hown⟩ := id_of_create h
  by_cases hempty : given.id = ""
  · obtain ⟨n, hid⟩ := hnew hempty
    rw [hid]
    exact iff_of_true (isBlank_idOfNumber n) (Or.inl hempty)
  · rw [hown hempty]
    exact (or_iff_right hempty).symm

theorem isBlank_page_of_create (h : App.runStore (create keys (some given)) w = (.ok stored, w')) :
    Text.isBlank given.page = false := by
  obtain ⟨e, w₁, hgiven, h₁⟩ := Program.exists_of_run_bind h
  cases hgiven
  obtain ⟨_, w₂, hrequire, -⟩ := Program.exists_of_run_bind h₁
  cases hpage : Text.isBlank given.page with
  | false => rfl
  | true =>
    rw [hpage] at hrequire
    cases hrequire

/-! ## Calls for one experiment -/

/-- The experiment is found as it is, an update of it succeeds, and it can be deleted, with or
    without the update before. -/
structure Addressable (keys : Keys) (e : Experiment) (w : World App) : Prop where
  found : (App.runStore (get keys e.id e.page) w).1 = .ok (some e)
  updated : (App.runStore (update keys (some e)) w).1 = .ok { e with updatedAt := .utc w.clock }
  deleted : (App.runStore (delete keys e.id e.page) w).1 = .ok true
  deletedUpdated :
    (App.runStore (delete keys e.id e.page) (App.runStore (update keys (some e)) w).2).1 = .ok true

/-- Every call for the experiment is refused because of its id, and nothing changes. -/
structure Unaddressable (keys : Keys) (e : Experiment) (w : World App) : Prop where
  found : App.runStore (get keys e.id e.page) w = (.error (.blank .experimentId), w)
  updated : App.runStore (update keys (some e)) w = (.error (.blank .experimentId), w)
  deleted : App.runStore (delete keys e.id e.page) w = (.error (.blank .experimentId), w)

variable {e : Experiment}

theorem unaddressable_of_blank (hid : Text.isBlank e.id = true) (w : World App) :
    Unaddressable keys e w := by
  have hrequire : (Program.require (A := Command.Result) .experimentId (Text.isBlank e.id)).run
      App.answerCommand w = (.error (.blank .experimentId), w) := by
    rw [hid]
    rfl
  refine ⟨Program.run_bind_of_error hrequire, ?_, Program.run_bind_of_error hrequire⟩
  exact (Program.run_bind_of_ok (a := e) rfl).trans (Program.run_bind_of_error hrequire)

/-- An experiment whose document is in the store under its id can be addressed. -/
theorem addressable_of_field (hid : Text.isBlank e.id = false) (hpage : Text.isBlank e.page = false)
    (hsized : e.Sized) (hfinite : e.Finite) (hw : w.Healthy)
    (hfield : w.state.server.store.field? (keys.page e.page) e.id = some e.render) :
    Addressable keys e w := by
  have hshows : w.Shows ⟨w.clock, w.issued, w.state.server.store⟩ := ⟨hw, rfl, rfl, rfl⟩
  have hthere : w.state.server.store.hasField (keys.page e.page) e.id = true := by
    rw [Store.hasField, hfield]
    rfl
  obtain ⟨hupdated, hafter⟩ := runs_update_document hid hpage hthere w hshows
  have hdelete (v : View) : Runs (delete keys e.id e.page) v
      (.ok (v.store.hasField (keys.page e.page) e.id))
      { v with store := v.store.removeField (keys.page e.page) e.id } :=
    runs_delete_document hid hpage
  refine ⟨(runs_get_document hid hpage hfield hsized hfinite w hshows).1, hupdated, ?_, ?_⟩
  · rw [(hdelete _ w hshows).1, hthere]
  · rw [(hdelete _ _ hafter).1, Store.hasField_setField_self]

/-! ## Experiments that were created -/

/-- An experiment that was created can be addressed, as long as nobody else changes its document,
    exactly when the id that it was given is empty or not blank. Otherwise every call for it is
    refused. -/
theorem created_addressable_iff (haccepted : given.Accepted) (hfinite : given.Finite)
    (hcreate : App.runStore (create keys (some given)) w = (.ok stored, w')) :
    ((∀ later : World App, later.Healthy →
        later.state.server.store.field? (keys.page stored.page) stored.id =
          w'.state.server.store.field? (keys.page stored.page) stored.id →
        Addressable keys stored later) ↔ given.id = "" ∨ Text.isBlank given.id = false) ∧
      (given.id ≠ "" → Text.isBlank given.id = true →
        ∀ later, Unaddressable keys stored later) := by
  have hblank := isBlank_id_of_create hcreate
  have hexec := exec_runStore (create keys (some given)) w
  rw [hcreate] at hexec
  rcases create_cases hexec with ⟨_, herror, -⟩ | ⟨_, _, now, ⟨⟩, hok, hsame, -, hstore⟩
  · cases herror
  cases hok
  have hgivenPage := isBlank_page_of_create hcreate
  have hpage : Text.isBlank stored.page = false := by
    rw [hsame]
    exact hgivenPage
  have hsized : stored.Sized := by
    rw [hsame]
    exact haccepted.sized
  have hfinite' : stored.Finite := by
    rw [hsame]
    exact hfinite
  have hfield : w'.state.server.store.field? (keys.page stored.page) stored.id =
      some stored.render := by
    rw [hstore, Store.field?_setField_self]
  refine ⟨⟨fun hall => ?_, fun hgiven later hlater hsame' => ?_⟩, fun hempty hgiven later => ?_⟩
  · let healed : World App :=
      w'.withServer { w'.state.server with hasClient := true, failure := none }
    have hfound := (hall healed ⟨rfl, rfl⟩ rfl).found
    rw [← hblank]
    by_contra hid
    rw [(unaddressable_of_blank (Bool.of_not_eq_false hid) healed).found] at hfound
    cases hfound
  · exact addressable_of_field (hblank.2 hgiven) hpage hsized hfinite' hlater (hsame'.trans hfield)
  · refine unaddressable_of_blank ?_ later
    rw [(id_of_create hcreate).2 hempty]
    exact hgiven

end

/-! ## Two experiments without a name -/

/-- An experiment that has little more than an id. -/
def plain (id : String) (now : Instant) : Experiment :=
  ⟨id, "", "landing", true, [], .utc now, .utc now⟩

theorem finite_plain (id : String) (now : Instant) : (plain id now).Finite :=
  fun _ hv => absurd hv List.not_mem_nil

theorem accepted_plain_empty : (plain "" 7).Accepted :=
  ⟨.utc 7, "\x7b\"page\":\"landing\"\x7d", rfl⟩

theorem accepted_plain_space : (plain " " 7).Accepted :=
  ⟨.utc 7, "\x7b\"id\":\" \",\"page\":\"landing\"\x7d", rfl⟩

/-- The application after it created one of them. -/
def plainWorld (id : String) : World App :=
  (App.runStore (create ⟨""⟩ (some (plain id 7))) (App.start Settings.defaults true 0)).2

theorem create_plain_empty :
    App.runStore (create ⟨""⟩ (some (plain "" 7))) (App.start Settings.defaults true 0) =
      (.ok (plain "00000000-0000-0000-0000-000000000001" 0), plainWorld "") :=
  Prod.ext rfl rfl

theorem create_plain_space :
    App.runStore (create ⟨""⟩ (some (plain " " 7))) (App.start Settings.defaults true 0) =
      (.ok (plain " " 0), plainWorld " ") :=
  Prod.ext rfl rfl

/-- The one with an empty id can be addressed, the one with a space for its id cannot. -/
theorem created_addressable_iff_plain :
    (plain "" 7).Accepted ∧ (plain " " 7).Accepted ∧ (plain "" 7).Finite ∧ (plain " " 7).Finite ∧
      App.runStore (create ⟨""⟩ (some (plain "" 7))) (App.start Settings.defaults true 0) =
        (.ok (plain "00000000-0000-0000-0000-000000000001" 0), plainWorld "") ∧
      App.runStore (create ⟨""⟩ (some (plain " " 7))) (App.start Settings.defaults true 0) =
        (.ok (plain " " 0), plainWorld " ") ∧
      Addressable ⟨""⟩ (plain "00000000-0000-0000-0000-000000000001" 0) (plainWorld "") ∧
      Unaddressable ⟨""⟩ (plain " " 0) (plainWorld " ") := by
  have haddressable := (created_addressable_iff accepted_plain_empty (finite_plain _ _)
    create_plain_empty).1.2 (Or.inl rfl) (plainWorld "") ⟨rfl, rfl⟩ rfl
  have hunaddressable := (created_addressable_iff accepted_plain_space (finite_plain _ _)
    create_plain_space).2 (by decide) rfl (plainWorld " ")
  exact ⟨accepted_plain_empty, accepted_plain_space, finite_plain _ _, finite_plain _ _,
    create_plain_empty, create_plain_space, haddressable, hunaddressable⟩

/-- Not everything that was created can be addressed. -/
theorem not_forall_addressable :
    ¬∀ (keys : Keys) (w w' : World App) (given stored : Experiment), given.Accepted →
      given.Finite → App.runStore (create keys (some given)) w = (.ok stored, w') → w'.Healthy →
        Addressable keys stored w' := by
  intro h
  have hfound := (h _ _ _ _ _ accepted_plain_space (finite_plain _ _) create_plain_space
    ⟨rfl, rfl⟩).found
  rw [(unaddressable_of_blank rfl _).found] at hfound
  cases hfound

end SplitTest
