import Mathlib
import SplitTest.Proofs.Experiment.Writes
import SplitTest.Proofs.Tasks.Basic

/-
  What a call changes.
  A call that fails changes nothing, wherever the store began to fail. One that succeeds changes its
  own cell: a creation appends a field to the hash of its page, an update replaces the text of a
  field in its place, a deletion takes at most one field away, and the statistics are one text and
  the cache. `Task.Did` says so for each call; the store may hold any texts and any tables, also
  tables that repeat a name.
-/

namespace SplitTest

open Statistics

/-! ## Tables -/

/-- A name that is found splits the table where it first appears. Setting it changes the value there,
    and removing it closes the gap. -/
theorem Table.exists_split {α : Type} {name : String} {old : α} {t : Table α}
    (h : get? name t = some old) :
    ∃ before after, t = before ++ (name, old) :: after ∧ name ∉ names before ∧
      (∀ value, put name value t = before ++ (name, value) :: after) ∧
      remove name t = before ++ after := by
  induction t with
  | nil => cases h
  | cons entry rest ih =>
    obtain ⟨key, value⟩ := entry
    by_cases hname : key = name
    · rw [get?, if_pos hname, Option.some.injEq] at h
      subst hname h
      exact ⟨[], rest, rfl, List.not_mem_nil, fun value => if_pos rfl, if_pos rfl⟩
    · rw [get?, if_neg hname] at h
      obtain ⟨before, after, rfl, hmem, hput, hremove⟩ := ih h
      refine ⟨(key, value) :: before, after, rfl, ?_, fun new => ?_, ?_⟩
      · rw [names, List.map_cons, List.mem_cons, not_or]
        exact ⟨Ne.symm hname, hmem⟩
      · rw [put, if_neg hname, hput, List.cons_append]
      · rw [remove, if_neg hname, hremove, List.cons_append]

/-! ## Stores -/

namespace Store

/-- One hash goes from some fields to others; all other hashes and all texts stay. -/
structure Rehashed (s s' : Store) (key : String) (fields fields' : Table String) : Prop where
  before : s.hash key = fields
  after : s'.hashes.get? key = some fields'
  others : ∀ other, other ≠ key → s'.hashes.get? other = s.hashes.get? other
  texts : s'.texts = s.texts

/-- One text is set; all other texts and all hashes stay. -/
structure Retexted (s s' : Store) (key text : String) : Prop where
  after : s'.texts.get? key = some text
  others : ∀ other, other ≠ key → s'.texts.get? other = s.texts.get? other
  hashes : s'.hashes = s.hashes

theorem rehashed_setHash (s : Store) (key : String) (fields : Table String) :
    s.Rehashed (s.setHash key fields) key (s.hash key) fields where
  before := rfl
  after := Table.get?_put_self key fields s.hashes
  others _ hother := Table.get?_put_of_ne hother fields s.hashes
  texts := rfl

theorem retexted_setText (s : Store) (key text : String) :
    s.Retexted (s.setText key text) key text where
  after := Table.get?_put_self key text s.texts
  others _ hother := Table.get?_put_of_ne hother text s.texts
  hashes := rfl

/-- A new field goes to the end of its hash. -/
theorem rehashed_setField_of_field?_eq_none {s : Store} {key field : String}
    (h : s.field? key field = none) (text : String) :
    field ∉ (s.hash key).names ∧
      s.Rehashed (s.setField key field text) key (s.hash key) (s.hash key ++ [(field, text)]) := by
  have hmem : field ∉ (s.hash key).names := Table.get?_eq_none_iff.1 h
  refine ⟨hmem, ?_⟩
  rw [← Table.put_of_not_mem text hmem]
  exact s.rehashed_setHash key _

/-- A field that is there keeps its place. -/
theorem rehashed_setField_of_field?_eq_some {s : Store} {key field old : String}
    (h : s.field? key field = some old) (text : String) :
    ∃ before after, field ∉ Table.names before ∧ s.Rehashed (s.setField key field text) key
      (before ++ (field, old) :: after) (before ++ (field, text) :: after) := by
  obtain ⟨before, after, hfields, hmem, hput, -⟩ := Table.exists_split h
  refine ⟨before, after, hmem, ?_⟩
  rw [← hput text, ← hfields]
  exact s.rehashed_setHash key _

/-- A field that is removed leaves the others in their places. -/
theorem rehashed_removeField {s : Store} {key field old : String}
    (h : s.field? key field = some old) :
    ∃ before after, field ∉ Table.names before ∧ s.Rehashed (s.removeField key field) key
      (before ++ (field, old) :: after) (before ++ after) := by
  obtain ⟨before, after, hfields, hmem, -, hremove⟩ := Table.exists_split h
  have hhas : s.hasField key field = true := by rw [hasField, h, Option.isSome_some]
  refine ⟨before, after, hmem, ?_⟩
  rw [removeField, if_pos hhas, ← hremove, ← hfields]
  exact s.rehashed_setHash key _

end Store

/-! ## The statistics -/

namespace Statistics

variable {keys : Keys} {x x' : Cells}

/-- A reader is answered; the store stays as it was, and the cache stays or keeps the answer. -/
theorem get_cases {r : Except Error PlatformStats} (h : (get keys).Ends Cells.Answers x r x') :
    ∃ s, r = .ok s ∧ (x' = x ∨ ∃ now, x' = { x with cache := x.cache.keep s now }) := by
  unfold get at h
  obtain ⟨now, h1⟩ := h.of_now_bind
  obtain ⟨fresh, x, ⟨-, rfl⟩, h2⟩ := h1.of_question_bind
  cases fresh with
  | some s =>
    obtain ⟨age, x, ⟨-, rfl⟩, h3⟩ := h2.of_question_bind
    cases h3.of_report_bind
    exact ⟨s, rfl, Or.inl rfl⟩
  | none =>
    obtain ⟨result, mid, hread, h3⟩ := h2.of_report_bind.of_attempt_bind
    obtain ⟨hstore, hcache⟩ := exec_of_ends_overStore hread
    have hkeeps := keeps_of_asks ((asks_current keys).mono fun _ hc => hc.2)
    obtain rfl := Cells.ext (hkeeps hstore) hcache
    cases result with
    | error e =>
      obtain ⟨stale, x, ⟨-, rfl⟩, h4⟩ := h3.of_report_bind.of_question_bind
      cases stale with
      | none =>
        cases h4
        exact ⟨_, rfl, Or.inl rfl⟩
      | some s =>
        cases h4.of_report_bind
        exact ⟨s, rfl, Or.inl rfl⟩
    | ok found =>
      cases found with
      | some s =>
        obtain ⟨_, _, rfl, h4⟩ := h3.of_question_bind
        cases h4
        exact ⟨s, rfl, Or.inr ⟨now, rfl⟩⟩
      | none =>
        obtain ⟨_, _, rfl, h4⟩ := h3.of_report_bind.of_question_bind
        cases h4
        exact ⟨_, rfl, Or.inr ⟨now, rfl⟩⟩

/-- Statistics are written as they are given, or the store is as it was. -/
theorem save_cases {s : PlatformStats} {t t' : Store} {r : Except Error PlatformStats}
    (h : Exec (save keys s) t r t') :
    (∃ e, r = .error e ∧ t' = t) ∨ r = .ok s ∧ t' = t.setText keys.stats s.render := by
  rcases h.bind_cases with ⟨e, hsend, rfl⟩ | ⟨_, mid, hsend, h⟩
  · exact Or.inl ⟨e, rfl, hsend.send_error⟩
  · cases h.of_report_bind
    exact Or.inr ⟨rfl, hsend.send_ok.2⟩

/-- An update stamps the figures, writes them and keeps what it wrote; where it fails, store and
    cache are as they were. -/
theorem update_cases {given : PlatformStats} {r : Except Error PlatformStats}
    (h : (update keys given).Ends Cells.Answers x r x') :
    (∃ e, r = .error e ∧ x' = x) ∨
      ∃ s now, s = given.stamped (.utc now) ∧ r = .ok s ∧
        x' = ⟨x.store.setText keys.stats s.render, x.cache.keep s now⟩ := by
  unfold update at h
  obtain ⟨now, h1⟩ := h.of_now_bind
  rcases h1.bind_cases with ⟨e, hsave, rfl⟩ | ⟨saved, mid, hsave, h2⟩
  · obtain ⟨hstore, hcache⟩ := exec_of_ends_overStore hsave
    rcases save_cases hstore with ⟨_, -, heq⟩ | ⟨hok, -⟩
    · exact Or.inl ⟨e, rfl, Cells.ext heq hcache⟩
    · cases hok
  · obtain ⟨hstore, hcache⟩ := exec_of_ends_overStore hsave
    obtain ⟨_, _, rfl, h3⟩ := h2.of_question_bind
    cases h3
    rcases save_cases hstore with ⟨_, herror, -⟩ | ⟨hok, heq⟩
    · cases herror
    · cases hok
      refine Or.inr ⟨_, now, rfl, rfl, ?_⟩
      rw [heq, hcache]

end Statistics

/-! ## Every call -/

namespace Task

/-- What a call that succeeded has changed. -/
def Did (keys : Keys) (x x' : Cells) : (t : Task) → t.Answer → Prop
  | create experiment, e =>
    x'.cache = x.cache ∧ (∃ given ∈ experiment, e.page = given.page) ∧
      ∃ fields, e.id ∉ fields.names ∧
        x.store.Rehashed x'.store (keys.page e.page) fields (fields ++ [(e.id, e.render)])
  | update experiment, e =>
    x'.cache = x.cache ∧ (∃ given ∈ experiment, e.page = given.page ∧ e.id = given.id) ∧
      ∃ before old after, e.id ∉ Table.names before ∧
        x.store.Rehashed x'.store (keys.page e.page) (before ++ (e.id, old) :: after)
          (before ++ (e.id, e.render) :: after)
  | delete id page, removed =>
    x'.cache = x.cache ∧
      ((removed = false ∧ x'.store = x.store) ∨
        removed = true ∧ ∃ before old after, id ∉ Table.names before ∧
          x.store.Rehashed x'.store (keys.page page) (before ++ (id, old) :: after)
            (before ++ after))
  | stats, s => x' = x ∨ ∃ now, x' = { x with cache := x.cache.keep s now }
  | updateStats given, s =>
    ∃ now, s = given.stamped (.utc now) ∧ x'.cache = x.cache.keep s now ∧
      x.store.Retexted x'.store keys.stats s.render
  | saveStats given, s =>
    s = given ∧ x'.cache = x.cache ∧ x.store.Retexted x'.store keys.stats s.render
  | get _ _, _ | active _ _, _ | respond _ _, _ | storedStats, _ => x' = x

/-- What a call leaves behind: everything as it was if it failed. -/
def Leaves (keys : Keys) (x : Cells) (t : Task) (r : Except Error t.Answer) (x' : Cells) : Prop :=
  match r with
  | .error _ => x' = x
  | .ok a => t.Did keys x x' a

section

variable {keys : Keys} {x x' : Cells}

theorem leaves_create {experiment : Option Experiment} {r : Except Error Experiment}
    (h : Exec (Experiments.create keys experiment) x.store r x'.store)
    (hcache : x'.cache = x.cache) : (create experiment).Leaves keys x r x' := by
  rcases create_cases h with ⟨e, rfl, hstore⟩ | ⟨given, e, now, hgiven, rfl, he, hnone, hstore⟩
  · exact Cells.ext hstore hcache
  · obtain ⟨hmem, hrehashed⟩ := Store.rehashed_setField_of_field?_eq_none hnone e.render
    rw [← hstore] at hrehashed
    exact ⟨hcache, ⟨given, hgiven, by rw [he]⟩, _, hmem, hrehashed⟩

theorem leaves_update {experiment : Option Experiment} {r : Except Error Experiment}
    (h : Exec (Experiments.update keys experiment) x.store r x'.store)
    (hcache : x'.cache = x.cache) : (update experiment).Leaves keys x r x' := by
  rcases SplitTest.update_cases h with
    ⟨e, rfl, hstore⟩ | ⟨given, e, now, hgiven, rfl, he, ⟨old, hold⟩, hstore⟩
  · exact Cells.ext hstore hcache
  · obtain ⟨before, after, hmem, hrehashed⟩ :=
      Store.rehashed_setField_of_field?_eq_some hold e.render
    rw [← hstore] at hrehashed
    exact ⟨hcache, ⟨given, hgiven, by rw [he], by rw [he]⟩,
      before, old, after, hmem, hrehashed⟩

theorem leaves_delete {id page : String} {r : Except Error Bool}
    (h : Exec (Experiments.delete keys id page) x.store r x'.store)
    (hcache : x'.cache = x.cache) : (delete id page).Leaves keys x r x' := by
  rcases delete_cases h with ⟨e, rfl, hstore⟩ | ⟨rfl, hstore⟩
  · exact Cells.ext hstore hcache
  · refine ⟨hcache, ?_⟩
    cases hfield : x.store.field? (keys.page page) id with
    | none =>
      have hhas : x.store.hasField (keys.page page) id = false := by
        rw [Store.hasField, hfield, Option.isSome_none]
      refine Or.inl ⟨hhas, ?_⟩
      rw [hstore, Store.removeField, hhas, if_neg Bool.false_ne_true]
    | some old =>
      obtain ⟨before, after, hmem, hrehashed⟩ := Store.rehashed_removeField hfield
      rw [← hstore] at hrehashed
      refine Or.inr ⟨?_, before, old, after, hmem, hrehashed⟩
      rw [Store.hasField, hfield, Option.isSome_some]

theorem leaves_saveStats {given : PlatformStats} {r : Except Error PlatformStats}
    (h : Exec (Statistics.save keys given) x.store r x'.store)
    (hcache : x'.cache = x.cache) : (saveStats given).Leaves keys x r x' := by
  rcases save_cases h with ⟨e, rfl, hstore⟩ | ⟨rfl, hstore⟩
  · exact Cells.ext hstore hcache
  · have hretexted := x.store.retexted_setText keys.stats given.render
    rw [← hstore] at hretexted
    exact ⟨rfl, hcache, hretexted⟩

theorem leaves_stats {r : Except Error PlatformStats}
    (h : (Statistics.get keys).Ends Cells.Answers x r x') : stats.Leaves keys x r x' := by
  obtain ⟨s, rfl, hcells⟩ := get_cases h
  exact hcells

theorem leaves_updateStats {given : PlatformStats} {r : Except Error PlatformStats}
    (h : (Statistics.update keys given).Ends Cells.Answers x r x') :
    (updateStats given).Leaves keys x r x' := by
  rcases Statistics.update_cases h with ⟨e, rfl, hcells⟩ | ⟨s, now, hs, rfl, rfl⟩
  · exact hcells
  · exact ⟨now, hs, rfl, x.store.retexted_setText keys.stats s.render⟩

/-- A call of the repository that only looks leaves all cells as they were. -/
theorem eq_of_views {α : Type} {p : StoreProgram α} {r : Except Error α} (hp : p.Asks keys.Views)
    (h : (overStore p).Ends Cells.Answers x r x') : x' = x := by
  obtain ⟨hstore, hcache⟩ := exec_of_ends_overStore h
  exact Cells.ext (keeps_of_asks (hp.mono fun _ hc => hc.2) hstore) hcache

theorem leaves_of_eq {t : Task} {r : Except Error t.Answer} (h : x' = x)
    (ht : ∀ a, x' = x → t.Did keys x x' a) : t.Leaves keys x r x' := by
  cases r with
  | error e => exact h
  | ok a => exact ht a h

/-- Every way in which a call can end. -/
theorem leaves_of_ends {settings : Settings} (t : Task) {r : Except Error t.Answer}
    (h : (t.program settings).Ends Cells.Answers x r x') : t.Leaves settings.keys x r x' := by
  cases t with
  | create experiment =>
    obtain ⟨hstore, hcache⟩ := exec_of_ends_overStore h
    exact leaves_create hstore hcache
  | update experiment =>
    obtain ⟨hstore, hcache⟩ := exec_of_ends_overStore h
    exact leaves_update hstore hcache
  | delete id page =>
    obtain ⟨hstore, hcache⟩ := exec_of_ends_overStore h
    exact leaves_delete hstore hcache
  | saveStats given =>
    obtain ⟨hstore, hcache⟩ := exec_of_ends_overStore h
    exact leaves_saveStats hstore hcache
  | stats => exact leaves_stats h
  | updateStats given => exact leaves_updateStats h
  | get id page =>
    exact leaves_of_eq (eq_of_views (Experiments.asks_get settings.keys id page) h) fun _ heq => heq
  | active page deadline =>
    exact leaves_of_eq (eq_of_views (Experiments.asks_active settings.keys page deadline) h)
      fun _ heq => heq
  | respond request deadline =>
    have hasks := Assigner.asks_respond (a := ⟨Experiments.active settings.keys,
      settings.readTimeout⟩) (Experiments.asks_active settings.keys) request deadline
    exact leaves_of_eq (eq_of_views hasks h) fun _ heq => heq
  | storedStats =>
    exact leaves_of_eq (eq_of_views (Statistics.asks_current settings.keys) h) fun _ heq => heq

end

end Task

/-- Every call, over any contents of the store and any cache, also when the store fails at some of
    its commands only: if it fails, store and cache are as they were, and if it succeeds, its own
    cell has changed as `Task.Did` says and nothing else. So it is for the calls of the
    application. -/
theorem tasks_atomic (t : Task) :
    (∀ ⦃settings : Settings⦄ ⦃x x' : Cells⦄ ⦃r : Except Error t.Answer⦄,
      (t.program settings).Ends Cells.Answers x r x' → t.Leaves settings.keys x r x') ∧
    ∀ w : World App, t.Leaves w.state.keys w.cells (t.run w).1 (t.run w).2.cells := by
  refine ⟨fun settings x x' r h => Task.leaves_of_ends t h, fun w => ?_⟩
  rcases t.ends_run w with h | ⟨e, hrun⟩
  · exact Task.leaves_of_ends t h
  · rw [hrun]
    exact rfl

/-- A page with one field, whose text is no document. -/
def brokenHero : Cells :=
  ⟨Store.empty.setField (Keys.page ⟨""⟩ "landing") "hero" "\x7b", .new 3600000000⟩

/-- An update of that field, when the store answers the first command and fails at the second one,
    and when it answers both. -/
theorem tasks_atomic_interrupted :
    (∃ x', ((Task.update (some (hero 0))).program Settings.defaults).Ends Cells.Answers brokenHero
      (.error (.store ⟨.connection, "connection reset"⟩)) x' ∧ x' = brokenHero) ∧
    ∃ e x', ((Task.update (some (hero 0))).program Settings.defaults).Ends Cells.Answers brokenHero
      (.ok e) x' ∧ (Task.update (some (hero 0))).Did ⟨""⟩ brokenHero x' e := by
  have hfailed : ∃ x', ((Task.update (some (hero 0))).program Settings.defaults).Ends Cells.Answers
      brokenHero (.error (.store ⟨.connection, "connection reset"⟩)) x' :=
    ⟨_, .ask (Or.inl ⟨rfl, rfl⟩) (.clock 0 (.ask (Or.inr ⟨.failed _, rfl, rfl⟩) (.fail _ _)))⟩
  have hwritten : ∃ e x', ((Task.update (some (hero 0))).program Settings.defaults).Ends
      Cells.Answers brokenHero (.ok e) x' :=
    ⟨_, _, .ask (Or.inl ⟨rfl, rfl⟩) (.clock 0 (.ask (Or.inl ⟨rfl, rfl⟩) (.log (.done _ _))))⟩
  obtain ⟨x', h⟩ := hfailed
  obtain ⟨e, x'', h'⟩ := hwritten
  exact ⟨⟨x', h, (tasks_atomic _).1 h⟩, e, x'', h', (tasks_atomic _).1 h'⟩

end SplitTest
