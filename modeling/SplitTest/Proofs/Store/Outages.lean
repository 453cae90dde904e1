import Mathlib
import SplitTest.App
import SplitTest.Proofs.Store.Executions

/-
  Computations over a store that may fail at any moment.
  `Exec p s r s'` says that `p`, started on the contents `s`, can end with `r` and leave `s'`. Every
  command is answered from the contents, or it is refused and changes nothing; one command may be
  answered and the next one refused. The clock and the new ids are arbitrary. What the application
  does is among these executions (`exec_runStore`).
-/

namespace SplitTest

/-- One way in which a computation can end. -/
inductive Exec {α : Type} : StoreProgram α → Store → Except Error α → Store → Prop
  | done (a : α) (s : Store) : Exec (.done a) s (.ok a) s
  | fail (e : Error) (s : Store) : Exec (.fail e) s (.error e) s
  | log {entry : Entry} {rest : StoreProgram α} {s s' : Store} {r : Except Error α}
      (h : Exec rest s r s') : Exec (.log entry rest) s r s'
  | print {line : String} {rest : StoreProgram α} {s s' : Store} {r : Except Error α}
      (h : Exec rest s r s') : Exec (.print line rest) s r s'
  | clock {next : Instant → StoreProgram α} {s s' : Store} {r : Except Error α} (now : Instant)
      (h : Exec (next now) s r s') : Exec (.clock next) s r s'
  | freshId {next : String → StoreProgram α} {s s' : Store} {r : Except Error α} (id : String)
      (h : Exec (next id) s r s') : Exec (.freshId next) s r s'
  | answered {c : Command} {next : c.Result → StoreProgram α} {s s' : Store} {r : Except Error α}
      (h : Exec (next (.ok (c.perform s).1)) (c.perform s).2 r s') : Exec (.ask c next) s r s'
  | refused {c : Command} {next : c.Result → StoreProgram α} {s s' : Store} {r : Except Error α}
      (outage : Outage) (h : Exec (next (.error outage)) s r s') : Exec (.ask c next) s r s'

/-- The answers that a command can get, and the contents after it. -/
def Command.Answers (c : Command) (result : c.Result) (s s' : Store) : Prop :=
  (result = .ok (c.perform s).1 ∧ s' = (c.perform s).2) ∨
    ∃ outage, result = .error outage ∧ s' = s

/-! ## The application -/

/-- A command is answered from the contents of the store, or refused and not carried out. -/
theorem Server.send_cases (c : Command) (s : Server) :
    ((s.send c).1 = .ok (c.perform s.store).1 ∧ (s.send c).2.store = (c.perform s.store).2) ∨
      ∃ outage, (s.send c).1 = .error outage ∧ (s.send c).2.store = s.store := by
  unfold send
  by_cases hclient : s.hasClient = true
  · rw [if_pos hclient]
    by_cases hlate : s.misses c = true
    · rw [answer, if_pos hlate]
      exact Or.inr ⟨_, rfl, rfl⟩
    · cases hfailure : s.failure with
      | none =>
        have hanswer := answer_of_healthy hfailure (Bool.eq_false_iff.2 hlate)
        exact Or.inl ⟨congrArg Prod.fst hanswer, congrArg (fun out => out.2.store) hanswer⟩
      | some failure =>
        rw [answer, if_neg hlate]
        simp only [record, hfailure]
        exact Or.inr ⟨_, rfl, trivial⟩
  · rw [if_neg hclient]
    exact Or.inr ⟨_, rfl, rfl⟩

/-- The application answers a command from the contents of the store, or refuses it. -/
theorem answerCommand_cases (c : Command) (w : World App) :
    (∃ w', App.answerCommand c w = (.ok (c.perform w.state.server.store).1, w') ∧
      w'.state.server.store = (c.perform w.state.server.store).2) ∨
    ∃ outage w', App.answerCommand c w = (.error outage, w') ∧
      w'.state.server.store = w.state.server.store := by
  rcases w.state.server.send_cases c with ⟨hresult, hstore⟩ | ⟨outage, hresult, hstore⟩
  · exact Or.inl ⟨_, Prod.ext hresult rfl, hstore⟩
  · exact Or.inr ⟨outage, _, Prod.ext hresult rfl, hstore⟩

/-- A run in the application is an execution. -/
theorem exec_runStore {α : Type} (p : StoreProgram α) (w : World App) :
    Exec p w.state.server.store (App.runStore p w).1 (App.runStore p w).2.state.server.store := by
  induction p generalizing w with
  | done a => exact .done a _
  | fail e => exact .fail e _
  | log entry rest ih => exact .log (ih { w with log := w.log ++ [entry] })
  | print line rest ih => exact .print (ih { w with printed := w.printed ++ [line] })
  | clock next ih => exact .clock w.clock (ih _ _)
  | freshId next ih => exact .freshId _ (ih _ { w with issued := w.issued + 1 })
  | ask c next ih =>
    have hrun : App.runStore (.ask c next) w =
        App.runStore (next (App.answerCommand c w).1) (App.answerCommand c w).2 := rfl
    rw [hrun]
    rcases answerCommand_cases c w with ⟨w', hanswer, hstore⟩ | ⟨outage, w', hanswer, hstore⟩
    · rw [hanswer]
      refine .answered ?_
      rw [← hstore]
      exact ih _ w'
    · rw [hanswer]
      refine .refused outage ?_
      rw [← hstore]
      exact ih _ w'

/-! ## What an execution was -/

namespace Exec

variable {α β : Type} {s s' : Store}

/-- Executions are the ways in which a program can end when every command is answered from the
    contents or refused. -/
theorem iff_ends {p : StoreProgram α} {r : Except Error α} :
    Exec p s r s' ↔ p.Ends Command.Answers s r s' := by
  constructor
  · intro h
    induction h with
    | done a s => exact .done a s
    | fail e s => exact .fail e s
    | log _ ih => exact .log ih
    | print _ ih => exact .print ih
    | clock now _ ih => exact .clock now ih
    | freshId id _ ih => exact .freshId id rfl ih
    | answered _ ih => exact .ask (Or.inl ⟨rfl, rfl⟩) ih
    | refused outage _ ih => exact .ask (Or.inr ⟨outage, rfl, rfl⟩) ih
  · intro h
    induction h with
    | done a s => exact .done a s
    | fail e s => exact .fail e s
    | log _ ih => exact .log ih
    | print _ ih => exact .print ih
    | clock now _ ih => exact .clock now ih
    | freshId id hid _ ih =>
      cases hid
      exact .freshId id ih
    | ask ha _ ih =>
      rcases ha with ⟨rfl, rfl⟩ | ⟨outage, rfl, rfl⟩
      · exact .answered ih
      · exact .refused outage ih

/-- Programs one after the other: the first one fails and nothing follows, or the second one goes on
    from what the first one ends with. -/
theorem bind_cases {p : StoreProgram α} {f : α → StoreProgram β} {r : Except Error β}
    (h : Exec (p >>= f) s r s') :
    (∃ e, Exec p s (.error e) s' ∧ r = .error e) ∨
      ∃ a mid, Exec p s (.ok a) mid ∧ Exec (f a) mid r s' := by
  simp only [iff_ends] at h ⊢
  exact h.bind_cases

/-- The answer of a command is that of the contents, and the command was carried out. -/
theorem send_ok {c : Command} {a : c.Answer} (h : Exec (StoreProgram.send c) s (.ok a) s') :
    a = (c.perform s).1 ∧ s' = (c.perform s).2 := by
  cases h with
  | answered h =>
    cases h
    exact ⟨rfl, rfl⟩
  | refused outage h => cases h

/-- A command that was refused was not carried out. -/
theorem send_error {c : Command} {e : Error} (h : Exec (StoreProgram.send c) s (.error e) s') :
    s' = s := by
  cases h with
  | answered h => cases h
  | refused outage h =>
    cases h
    rfl

/-- After a report, the end is that of what follows. -/
theorem of_report_bind {entry : Entry} {p : StoreProgram α} {r : Except Error α}
    (h : Exec (Program.report entry >>= fun _ => p) s r s') : Exec p s r s' := by
  cases h with
  | log h => exact h

end Exec

/-! ## Computations that only look -/

/-- However the computation ends, the store is as it was. -/
def Keeps {α : Type} (p : StoreProgram α) : Prop :=
  ∀ ⦃s s' : Store⦄ ⦃r : Except Error α⦄, Exec p s r s' → s' = s

namespace Keeps

variable {α β : Type}

theorem done (a : α) : Keeps (.done a : StoreProgram α) := by
  intro s s' r h
  cases h
  rfl

theorem fail (e : Error) : Keeps (.fail e : StoreProgram α) := by
  intro s s' r h
  cases h
  rfl

theorem require (subject : Subject) (missing : Bool) :
    Keeps (Program.require subject missing) := by
  unfold Program.require
  split_ifs
  · exact fail _
  · exact done ()

theorem now : Keeps Program.now := by
  intro s s' r h
  cases h with
  | clock now h => exact done now h

/-- A command that changes nothing when it is answered changes nothing at all. -/
theorem send {c : Command} (hc : ∀ s, (c.perform s).2 = s) : Keeps (StoreProgram.send c) := by
  intro s s' r h
  cases r with
  | ok a => rw [h.send_ok.2, hc]
  | error e => exact h.send_error

/-- What follows a computation that only looks starts from the same contents. -/
theorem bind_cases {p : StoreProgram α} {f : α → StoreProgram β} {s s' : Store}
    {r : Except Error β} (hp : Keeps p) (h : Exec (p >>= f) s r s') :
    (∃ e, r = .error e ∧ s' = s) ∨ ∃ a, Exec p s (.ok a) s ∧ Exec (f a) s r s' := by
  rcases h.bind_cases with ⟨e, hfirst, hr⟩ | ⟨a, mid, hfirst, hrest⟩
  · exact Or.inl ⟨e, hr, hp hfirst⟩
  · obtain rfl := hp hfirst
    exact Or.inr ⟨a, hfirst, hrest⟩

end Keeps

end SplitTest
