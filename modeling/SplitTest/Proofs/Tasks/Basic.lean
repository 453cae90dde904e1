import Mathlib
import SplitTest.Proofs.Store.Outages
import SplitTest.Proofs.Store.Questions

/-
  Everything that can be asked of the repositories and of the services.
  A `Task` is one call with its arguments. It works on the `Cells` of the application: the store and
  the cache of the statistics. `Program.Ends` says how a program can end when questions are answered
  as a relation allows; `Cells.Answers` is that relation, in which every command may be refused. What
  the application does is among these executions (`Task.ends_run`).
-/

namespace SplitTest

open Statistics

/-! ## The cells -/

/-- What a call can read and change. -/
@[ext]
structure Cells where
  store : Store
  cache : TimedCache PlatformStats

/-- The answers that a query can get, and the cells after it. A command is answered from the store,
    or it is refused and not carried out; the cache is always at hand. -/
def Cells.Answers : (q : Query) → q.Answer → Cells → Cells → Prop
  | .store c, result, x, x' =>
    (result = .ok (c.perform x.store).1 ∧ x' = { x with store := (c.perform x.store).2 }) ∨
      ∃ outage, result = .error outage ∧ x' = x
  | .fresh now, found, x, x' => found = x.cache.fresh? now ∧ x' = x
  | .age now, found, x, x' => found = x.cache.age? now ∧ x' = x
  | .stale, found, x, x' => found = x.cache.stale? ∧ x' = x
  | .keep value now, _, x, x' => x' = { x with cache := x.cache.keep value now }

/-- A computation over the store alone does not touch the cache. -/
theorem exec_of_ends_overStore {α : Type} {p : StoreProgram α} {x x' : Cells} {r : Except Error α}
    (h : (overStore p).Ends Cells.Answers x r x') :
    Exec p x.store r x'.store ∧ x'.cache = x.cache := by
  unfold overStore at h
  induction p generalizing x with
  | done a =>
    cases h
    exact ⟨.done a _, rfl⟩
  | fail e =>
    cases h
    exact ⟨.fail e _, rfl⟩
  | log entry rest ih =>
    cases h with
    | log h => exact (ih h).imp_left .log
  | print line rest ih =>
    cases h with
    | print h => exact (ih h).imp_left .print
  | clock next ih =>
    cases h with
    | clock now h => exact (ih now h).imp_left (.clock now)
  | freshId next ih =>
    cases h with
    | freshId id hid h =>
      cases hid
      exact (ih id h).imp_left (.freshId id)
  | ask c next ih =>
    cases h with
    | ask ha h =>
      rcases ha with ⟨rfl, rfl⟩ | ⟨outage, rfl, rfl⟩
      · exact (ih _ h).imp_left .answered
      · exact (ih _ h).imp_left (.refused outage)

/-! ## The application -/

/-- The cells of the application: the cache is the one that is there, or else the one that would be
    made. Where none can be made, no call gets as far as to touch it. -/
def World.cells (w : World App) : Cells :=
  ⟨w.state.server.store, (App.openCache w).toOption.getD (.new 0)⟩

section

variable {α : Type}

theorem answers_answerCommand (c : Command) (w : World App) :
    Cells.Answers (.store c) (App.answerCommand c w).1 w.cells (App.answerCommand c w).2.cells := by
  have hcells : (App.answerCommand c w).2.cells =
      { w.cells with store := (w.state.server.send c).2.store } := rfl
  rw [hcells]
  rcases w.state.server.send_cases c with ⟨hresult, hstore⟩ | ⟨outage, hresult, hstore⟩
  · rw [hstore]
    exact Or.inl ⟨hresult, rfl⟩
  · rw [hstore]
    exact Or.inr ⟨outage, hresult, rfl⟩

theorem ends_runStore (p : StoreProgram α) (w : World App) :
    (overStore p).Ends Cells.Answers w.cells (App.runStore p w).1 (App.runStore p w).2.cells := by
  induction p generalizing w with
  | done a => exact .done a _
  | fail e => exact .fail e _
  | log entry rest ih => exact .log (ih { w with log := w.log ++ [entry] })
  | print line rest ih => exact .print (ih { w with printed := w.printed ++ [line] })
  | clock next ih => exact .clock w.clock (ih _ _)
  | freshId next ih => exact .freshId _ rfl (ih _ { w with issued := w.issued + 1 })
  | ask c next ih => exact .ask (answers_answerCommand c w) (ih _ _)

/-- A query is answered from a cache that is there. -/
theorem answers_answerQuery (kept : TimedCache PlatformStats) {cache : TimedCache PlatformStats}
    {w : World App} (hcache : w.state.cache = some cache) (q : Query) :
    Cells.Answers q (App.answerQuery kept q w).1 w.cells (App.answerQuery kept q w).2.cells ∧
      ∃ cache', (App.answerQuery kept q w).2.state.cache = some cache' := by
  have hcells : w.cells = ⟨w.state.server.store, cache⟩ := by
    rw [World.cells, App.openCache, hcache]
    rfl
  have hkept : w.state.cache.getD kept = cache := by rw [hcache, Option.getD_some]
  cases q with
  | store c => exact ⟨answers_answerCommand c w, cache, hcache⟩
  | fresh now => exact ⟨⟨by rw [hcells, ← hkept]; rfl, rfl⟩, cache, hcache⟩
  | age now => exact ⟨⟨by rw [hcells, ← hkept]; rfl, rfl⟩, cache, hcache⟩
  | stale => exact ⟨⟨by rw [hcells, ← hkept]; rfl, rfl⟩, cache, hcache⟩
  | keep value now =>
    refine ⟨?_, _, rfl⟩
    rw [hcells, ← hkept]
    rfl

theorem ends_run_answerQuery {kept cache : TimedCache PlatformStats} (p : ServiceProgram α)
    {w : World App} (hcache : w.state.cache = some cache) :
    p.Ends Cells.Answers w.cells (p.run (App.answerQuery kept) w).1
      (p.run (App.answerQuery kept) w).2.cells := by
  induction p generalizing w cache with
  | done a => exact .done a _
  | fail e => exact .fail e _
  | log entry rest ih => exact .log (ih (w := { w with log := w.log ++ [entry] }) hcache)
  | print line rest ih => exact .print (ih (w := { w with printed := w.printed ++ [line] }) hcache)
  | clock next ih => exact .clock w.clock (ih _ hcache)
  | freshId next ih => exact .freshId _ rfl (ih _ (w := { w with issued := w.issued + 1 }) hcache)
  | ask q next ih =>
    obtain ⟨hanswers, cache', hcache'⟩ := answers_answerQuery kept hcache q
    exact .ask hanswers (ih _ hcache')

/-- A run over store and cache is an execution, unless the cache cannot be made. -/
theorem ends_runStats (p : ServiceProgram α) (w : World App) :
    p.Ends Cells.Answers w.cells (App.runStats p w).1 (App.runStats p w).2.cells ∨
      ∃ e, App.runStats p w = (.error e, w) := by
  unfold App.runStats
  cases hopen : App.openCache w with
  | error e => exact Or.inr ⟨e, rfl⟩
  | ok cache =>
    have hcells : (w.withCache cache).cells = w.cells := by
      rw [World.cells, World.cells, hopen]
      rfl
    rw [← hcells]
    exact Or.inl (ends_run_answerQuery p rfl)

end

/-! ## The tasks -/

/-- One call of a repository or a service. -/
inductive Task
  | create (experiment : Option Experiment)
  | update (experiment : Option Experiment)
  | delete (id page : String)
  | get (id page : String)
  | active (page : String) (deadline : Option Binary64)
  | respond (request : Option Request) (deadline : Option Binary64)
  /-- The statistics for a reader. -/
  | stats
  | updateStats (given : PlatformStats)
  /-- The statistics in the store, past the cache. -/
  | storedStats
  | saveStats (given : PlatformStats)

namespace Task

/-- What a call is answered with. -/
abbrev Answer : Task → Type
  | create _ => Experiment
  | update _ => Experiment
  | delete _ _ => Bool
  | get _ _ => Option Experiment
  | active _ _ => List Experiment
  | respond _ _ => Response
  | stats => PlatformStats
  | updateStats _ => PlatformStats
  | storedStats => Option PlatformStats
  | saveStats _ => PlatformStats

/-- The program of a call. -/
def program (settings : Settings) : (t : Task) → ServiceProgram t.Answer
  | create experiment => overStore (Experiments.create settings.keys experiment)
  | update experiment => overStore (Experiments.update settings.keys experiment)
  | delete id page => overStore (Experiments.delete settings.keys id page)
  | get id page => overStore (Experiments.get settings.keys id page)
  | active page deadline => overStore (Experiments.active settings.keys page deadline)
  | respond request deadline =>
    overStore ((Assigner.mk (Experiments.active settings.keys) settings.readTimeout).respond
      request deadline)
  | stats => Statistics.get settings.keys
  | updateStats given => Statistics.update settings.keys given
  | storedStats => overStore (Statistics.current settings.keys)
  | saveStats given => overStore (Statistics.save settings.keys given)

/-- The call in the application. -/
def run (w : World App) : (t : Task) → Except Error t.Answer × World App
  | create experiment => App.runStore (Experiments.create w.state.keys experiment) w
  | update experiment => App.runStore (Experiments.update w.state.keys experiment) w
  | delete id page => App.runStore (Experiments.delete w.state.keys id page) w
  | get id page => App.runStore (Experiments.get w.state.keys id page) w
  | active page deadline => App.runStore (Experiments.active w.state.keys page deadline) w
  | respond request deadline => App.runStore (w.state.assigner.respond request deadline) w
  | stats => App.stats w
  | updateStats given => App.runStats (Statistics.update w.state.keys given) w
  | storedStats => App.runStore (Statistics.current w.state.keys) w
  | saveStats given => App.runStore (Statistics.save w.state.keys given) w

/-- A call in the application is an execution of its program, or it fails before it starts. -/
theorem ends_run (t : Task) (w : World App) :
    (t.program w.state.settings).Ends Cells.Answers w.cells (t.run w).1 (t.run w).2.cells ∨
      ∃ e, t.run w = (.error e, w) := by
  cases t with
  | stats | updateStats => exact ends_runStats _ w
  | create | update | delete | get | active | respond | storedStats | saveStats =>
    exact Or.inl (ends_runStore _ w)

end Task

end SplitTest
