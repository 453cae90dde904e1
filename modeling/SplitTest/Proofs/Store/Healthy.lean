import Mathlib
import SplitTest.App

/-
  Computations over a store that works.
  `Runs p v r v'` says that wherever the clock, the number of ids taken and the contents of the
  store are those of `v`, and the store is connected and does not fail, `p` ends with `r` and
  leaves `v'`. One rule for each step of a program, and one for programs one after the other.
-/

namespace SplitTest

namespace Program

variable {Q : Type} {A : Q → Type} {α β σ : Type} {answer : (q : Q) → World σ → A q × World σ}
  {p : Program Q A α} {f : α → Program Q A β} {w w' : World σ}

theorem run_bind_of_ok {a : α} (h : p.run answer w = (.ok a, w')) :
    (p >>= f).run answer w = (f a).run answer w' := by
  change (p.bind f).run answer w = _
  rw [run_bind, h]

theorem run_bind_of_error {e : Error} (h : p.run answer w = (.error e, w')) :
    (p >>= f).run answer w = (.error e, w') := by
  change (p.bind f).run answer w = _
  rw [run_bind, h]

/-- Programs one after the other succeed when each of them does. -/
theorem exists_of_run_bind {b : β} (h : (p >>= f).run answer w = (.ok b, w')) :
    ∃ a mid, p.run answer w = (.ok a, mid) ∧ (f a).run answer mid = (.ok b, w') := by
  rcases hfirst : p.run answer w with ⟨r, mid⟩
  cases r with
  | error e =>
    rw [run_bind_of_error hfirst] at h
    cases h
  | ok a =>
    rw [run_bind_of_ok hfirst] at h
    exact ⟨a, mid, rfl, h⟩

end Program

/-- The store is connected and does not fail. -/
structure World.Healthy (w : World App) : Prop where
  hasClient : w.state.server.hasClient = true
  failure : w.state.server.failure = none

/-- What a computation over a healthy store depends on. -/
structure View where
  clock : Instant
  issued : Nat
  store : Store

/-- A healthy world with this clock, these ids taken and these contents of the store. -/
structure World.Shows (w : World App) (v : View) : Prop extends w.Healthy where
  clock : w.clock = v.clock
  issued : w.issued = v.issued
  store : w.state.server.store = v.store

/-- In every world that shows `v`, the computation ends with `r` and leaves a world that shows
    `v'`. -/
def Runs {α : Type} (p : StoreProgram α) (v : View) (r : Except Error α) (v' : View) : Prop :=
  ∀ w : World App, w.Shows v → (App.runStore p w).1 = r ∧ (App.runStore p w).2.Shows v'

namespace Runs

variable {α β : Type} {v v' last : View}

/-! ## One step -/

theorem done (a : α) : Runs (.done a) v (.ok a) v := fun _ hw => ⟨rfl, hw⟩

theorem fail (e : Error) : Runs (.fail e : StoreProgram α) v (.error e) v :=
  fun _ hw => ⟨rfl, hw⟩

theorem log {p : StoreProgram α} {r : Except Error α} (entry : Entry) (h : Runs p v r v') :
    Runs (.log entry p) v r v' :=
  fun w hw => h { w with log := w.log ++ [entry] }
    ⟨⟨hw.hasClient, hw.failure⟩, hw.clock, hw.issued, hw.store⟩

theorem print {p : StoreProgram α} {r : Except Error α} (line : String) (h : Runs p v r v') :
    Runs (.print line p) v r v' :=
  fun w hw => h { w with printed := w.printed ++ [line] }
    ⟨⟨hw.hasClient, hw.failure⟩, hw.clock, hw.issued, hw.store⟩

theorem clock {next : Instant → StoreProgram α} {r : Except Error α}
    (h : Runs (next v.clock) v r v') : Runs (.clock next) v r v' := by
  intro w hw
  rw [← hw.clock] at h
  exact h w hw

theorem freshId {next : String → StoreProgram α} {r : Except Error α}
    (h : Runs (next (idOfNumber (v.issued + 1))) { v with issued := v.issued + 1 } r v') :
    Runs (.freshId next) v r v' := by
  intro w hw
  rw [← hw.issued] at h
  exact h { w with issued := w.issued + 1 } ⟨⟨hw.hasClient, hw.failure⟩, hw.clock, rfl, hw.store⟩

theorem report (entry : Entry) : Runs (Program.report entry) v (.ok ()) v :=
  log entry (done ())

theorem now : Runs Program.now v (.ok v.clock) v :=
  clock (done v.clock)

theorem newId : Runs Program.newId v (.ok (idOfNumber (v.issued + 1)))
    { v with issued := v.issued + 1 } :=
  freshId (done _)

theorem require {subject : Subject} {missing : Bool} (h : missing = false) :
    Runs (Program.require subject missing) v (.ok ()) v := by
  rw [h]
  exact done ()

theorem require_missing {subject : Subject} {missing : Bool} (h : missing = true) :
    Runs (Program.require subject missing) v (.error (.blank subject)) v := by
  rw [h]
  exact fail _

/-- A command without a deadline is answered from the contents of the store. -/
theorem ask {c : Command} (hc : ∀ s : Server, s.misses c = false)
    {next : c.Result → StoreProgram α} {r : Except Error α}
    (h : Runs (next (.ok (c.perform v.store).1)) { v with store := (c.perform v.store).2 } r v') :
    Runs (.ask c next) v r v' := by
  intro w hw
  have hanswer : App.answerCommand c w = (.ok (c.perform v.store).1,
      w.withServer { w.state.server.record (.command c) with
        store := (c.perform v.store).2 }) := by
    rw [App.answerCommand, Server.send, if_pos hw.hasClient,
      Server.answer_of_healthy hw.failure (hc _), hw.store]
  change (match App.answerCommand c w with
    | (a, w) => App.runStore (next a) w).1 = r ∧ World.Shows (match App.answerCommand c w with
    | (a, w) => App.runStore (next a) w).2 v'
  rw [hanswer]
  exact h _ ⟨⟨hw.hasClient, hw.failure⟩, hw.clock, hw.issued, rfl⟩

theorem send {c : Command} (hc : ∀ s : Server, s.misses c = false) :
    Runs (StoreProgram.send c) v (.ok (c.perform v.store).1)
      { v with store := (c.perform v.store).2 } :=
  ask hc (done _)

/-! ## Programs one after the other -/

theorem bind {p : StoreProgram α} {f : α → StoreProgram β} {a : α} {r : Except Error β}
    (hp : Runs p v (.ok a) v') (hf : Runs (f a) v' r last) : Runs (p >>= f) v r last := by
  intro w hw
  obtain ⟨hresult, hshows⟩ := hp w hw
  have hrun : App.runStore (p >>= f) w = App.runStore (f a) (App.runStore p w).2 :=
    Program.run_bind_of_ok (Prod.ext hresult rfl)
  rw [hrun]
  exact hf _ hshows

/-- After an error nothing follows. -/
theorem bind_error {p : StoreProgram α} {f : α → StoreProgram β} {e : Error}
    (hp : Runs p v (.error e) v') : Runs (p >>= f) v (.error e) v' := by
  intro w hw
  obtain ⟨hresult, hshows⟩ := hp w hw
  have hrun : App.runStore (p >>= f) w = (.error e, (App.runStore p w).2) :=
    Program.run_bind_of_error (Prod.ext hresult rfl)
  rw [hrun]
  exact ⟨rfl, hshows⟩

end Runs

end SplitTest
