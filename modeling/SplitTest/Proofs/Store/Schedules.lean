import Mathlib
import SplitTest.Proofs.Store.Questions

/-
  Computations over a store whose outages follow a schedule.
  The commands of a computation are numbered. Under a schedule the command with number `n` is
  refused because of the outage `outages n`, or answered from the contents where there is none, so a
  store that begins to fail midway is a schedule that is empty up to some number. The clock and the
  new ids are arbitrary. Every computation ends under every schedule (`Program.exists_ends_meets`),
  and a run in the application follows the schedule in which every command meets what stands between
  the application and its store (`exists_ends_runStore`).
-/

namespace SplitTest

/-- The answers that a command can get under a schedule of outages, and the contents after it, with
    the number of the next command. -/
def Command.Meets (outages : Nat → Option Outage) (c : Command) (result : c.Result)
    (x x' : Nat × Store) : Prop :=
  match outages x.1 with
  | none => result = .ok (c.perform x.2).1 ∧ x' = (x.1 + 1, (c.perform x.2).2)
  | some outage => result = .error outage ∧ x' = (x.1 + 1, x.2)

/-- A command without a deadline that its answer could miss. -/
def Command.Prompt (c : Command) : Prop := ∀ s : Server, s.misses c = false

section

variable {α : Type} {outages : Nat → Option Outage} {x x' : Nat × Store}

/-- Every computation has an end. -/
theorem Program.exists_ends_meets (outages : Nat → Option Outage) (p : StoreProgram α)
    (x : Nat × Store) :
    ∃ r x', p.Ends (Command.Meets outages) x r x' := by
  induction p generalizing x with
  | done a => exact ⟨_, _, .done a x⟩
  | fail e => exact ⟨_, _, .fail e x⟩
  | log entry rest ih =>
    obtain ⟨r, x', h⟩ := ih x
    exact ⟨r, x', .log h⟩
  | print line rest ih =>
    obtain ⟨r, x', h⟩ := ih x
    exact ⟨r, x', .print h⟩
  | clock next ih =>
    obtain ⟨r, x', h⟩ := ih 0 x
    exact ⟨r, x', .clock 0 h⟩
  | freshId next ih =>
    obtain ⟨r, x', h⟩ := ih "" x
    exact ⟨r, x', .freshId "" rfl h⟩
  | ask c next ih =>
    cases houtage : outages x.1 with
    | none =>
      obtain ⟨r, x', h⟩ := ih (.ok (c.perform x.2).1) (x.1 + 1, (c.perform x.2).2)
      refine ⟨r, x', .ask ?_ h⟩
      rw [Command.Meets, houtage]
      exact ⟨rfl, rfl⟩
    | some outage =>
      obtain ⟨r, x', h⟩ := ih (.error outage) (x.1 + 1, x.2)
      refine ⟨r, x', .ask ?_ h⟩
      rw [Command.Meets, houtage]
      exact ⟨rfl, rfl⟩

/-- A command is refused and nothing follows, or it is answered and the computation goes on. -/
theorem Program.EndsIssuing.of_send_bind {issue : String → Nat × Store → Nat × Store → Prop}
    {c : Command} {f : c.Answer → StoreProgram α} {r : Except Error α}
    (h : (StoreProgram.send c >>= f).EndsIssuing issue (Command.Meets outages) x r x') :
    (∃ outage, outages x.1 = some outage ∧ r = .error outage.toError ∧ x' = (x.1 + 1, x.2)) ∨
      (outages x.1 = none ∧ (f (c.perform x.2).1).EndsIssuing issue (Command.Meets outages)
        (x.1 + 1, (c.perform x.2).2) r x') := by
  cases h with
  | ask hmeets h =>
    unfold Command.Meets at hmeets
    cases houtage : outages x.1 with
    | none =>
      rw [houtage] at hmeets
      obtain ⟨rfl, rfl⟩ := hmeets
      exact Or.inr ⟨rfl, h⟩
    | some outage =>
      rw [houtage] at hmeets
      obtain ⟨rfl, rfl⟩ := hmeets
      cases h
      exact Or.inl ⟨outage, rfl, rfl, rfl⟩

end

/-! ## The application -/

namespace Server

/-- What stands between the application and its store, if anything does. -/
def outage? (s : Server) : Option Outage :=
  if s.hasClient then s.failure.map .failed else some .disconnected

/-- A prompt command is refused because of the outage, or it is answered; neither changes what the
    next command meets. -/
theorem send_prompt {c : Command} (hc : c.Prompt) (s : Server) (n : Nat) :
    c.Meets (fun _ => s.outage?) (s.send c).1 (n, s.store) (n + 1, (s.send c).2.store) ∧
      (s.send c).2.outage? = s.outage? := by
  unfold Command.Meets send outage?
  by_cases hclient : s.hasClient = true
  · rw [if_pos hclient, if_pos hclient]
    cases hfailure : s.failure with
    | none =>
      rw [answer_of_healthy hfailure (hc s)]
      exact ⟨⟨rfl, rfl⟩, (if_pos hclient).trans (congrArg _ hfailure)⟩
    | some failure =>
      rw [answer, if_neg (Bool.eq_false_iff.1 (hc s))]
      simp only [record, hfailure]
      exact ⟨⟨rfl, trivial⟩, if_pos hclient⟩
  · rw [if_neg hclient, if_neg hclient]
    exact ⟨⟨rfl, rfl⟩, if_neg hclient⟩

end Server

/-- A run of prompt commands in the application follows the schedule of one and the same outage, or
    of none. -/
theorem exists_ends_runStore {α : Type} {p : StoreProgram α} (hp : p.Asks Command.Prompt)
    (w : World App) (n : Nat) :
    ∃ n', p.Ends (Command.Meets fun _ => w.state.server.outage?) (n, w.state.server.store)
      (App.runStore p w).1 (n', (App.runStore p w).2.state.server.store) := by
  induction p generalizing w n with
  | done a => exact ⟨n, .done a _⟩
  | fail e => exact ⟨n, .fail e _⟩
  | log entry rest ih =>
    obtain ⟨n', h⟩ := ih hp { w with log := w.log ++ [entry] } n
    exact ⟨n', .log h⟩
  | print line rest ih =>
    obtain ⟨n', h⟩ := ih hp { w with printed := w.printed ++ [line] } n
    exact ⟨n', .print h⟩
  | clock next ih =>
    obtain ⟨n', h⟩ := ih w.clock (hp w.clock) w n
    exact ⟨n', .clock w.clock h⟩
  | freshId next ih =>
    obtain ⟨n', h⟩ := ih _ (hp _) { w with issued := w.issued + 1 } n
    exact ⟨n', .freshId _ rfl h⟩
  | ask c next ih =>
    obtain ⟨hmeets, houtage⟩ := w.state.server.send_prompt hp.1 n
    obtain ⟨n', h⟩ := ih (w.state.server.send c).1 (hp.2 _)
      (w.withServer (w.state.server.send c).2) (n + 1)
    refine ⟨n', .ask hmeets ?_⟩
    rw [← houtage]
    exact h

end SplitTest
