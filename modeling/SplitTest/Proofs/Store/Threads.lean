import Mathlib
import SplitTest.Proofs.Store.Healthy

/-
  Programs that take turns.
  A `Thread` is what is left of a program when the clock stands still and it is known which ids are
  taken: its questions, one after the other, and its result. Two threads over one state are
  `Interleaved` when at every point either of them may ask its next question. Every answer is one
  step. Over a store that works, a program that is not interleaved with anything ends as its thread
  does (`exists_runs_thread`).
-/

namespace SplitTest

/-- A computation that asks questions, one after the other, and ends with a result. -/
inductive Thread (Q : Type) (A : Q → Type) (ρ : Type)
  | ended (r : ρ)
  | asking (q : Q) (next : A q → Thread Q A ρ)

/-- The questions of a program and its result, while the clock shows one time and when so many ids
    have been taken. -/
def Program.thread {Q : Type} {A : Q → Type} {α : Type} (now : Instant) :
    Program Q A α → Nat → Thread Q A (Except Error α)
  | .done a, _ => .ended (.ok a)
  | .fail e, _ => .ended (.error e)
  | .log _ rest, n => rest.thread now n
  | .print _ rest, n => rest.thread now n
  | .clock next, n => (next now).thread now n
  | .freshId next, n => (next (idOfNumber (n + 1))).thread now (n + 1)
  | .ask q next, n => .asking q fun a => (next a).thread now n

namespace Thread

variable {Q : Type} {A : Q → Type} {ρ ρ' σ : Type}

/-- The thread with its result changed. -/
def map (f : ρ → ρ') : Thread Q A ρ → Thread Q A ρ'
  | ended r => ended (f r)
  | asking q next => asking q fun a => (next a).map f

/-- A thread on its own, with a function that answers questions from a state. -/
def run (answer : (q : Q) → σ → A q × σ) : Thread Q A ρ → σ → ρ × σ
  | ended r, s => (r, s)
  | asking q next, s => (next (answer q s).1).run answer (answer q s).2

theorem run_map (answer : (q : Q) → σ → A q × σ) (f : ρ → ρ') (t : Thread Q A ρ) (s : σ) :
    (t.map f).run answer s = (t.run answer s).map f id := by
  induction t generalizing s with
  | ended r => rfl
  | asking q next ih => exact ih _ _

/-! ## Two threads -/

/-- Two threads over one state end with these results and leave that state. At every point either of
    them may ask its next question. -/
inductive Interleaved (answer : (q : Q) → σ → A q × σ) :
    Thread Q A ρ → Thread Q A ρ' → σ → ρ → ρ' → σ → Prop
  | ended (r : ρ) (r' : ρ') (s : σ) : Interleaved answer (.ended r) (.ended r') s r r' s
  | first {q : Q} {next : A q → Thread Q A ρ} {t' : Thread Q A ρ'} {s s' : σ} {r : ρ} {r' : ρ'}
      (h : Interleaved answer (next (answer q s).1) t' (answer q s).2 r r' s') :
      Interleaved answer (.asking q next) t' s r r' s'
  | second {t : Thread Q A ρ} {q : Q} {next : A q → Thread Q A ρ'} {s s' : σ} {r : ρ} {r' : ρ'}
      (h : Interleaved answer t (next (answer q s).1) (answer q s).2 r r' s') :
      Interleaved answer t (.asking q next) s r r' s'

/-- One thread after the other, with these results and that state in the end. -/
def InTurn (answer : (q : Q) → σ → A q × σ) (t : Thread Q A ρ) (t' : Thread Q A ρ') (s : σ)
    (r : ρ) (r' : ρ') (s' : σ) : Prop :=
  ∃ mid, t.run answer s = (r, mid) ∧ t'.run answer mid = (r', s')

section

variable {answer : (q : Q) → σ → A q × σ} {t : Thread Q A ρ} {t' : Thread Q A ρ'} {s s' : σ}
  {r : ρ} {r' : ρ'}

theorem Interleaved.symm (h : Interleaved answer t t' s r r' s') :
    Interleaved answer t' t s r' r s' := by
  induction h with
  | ended r r' s => exact .ended r' r s
  | first _ ih => exact .second ih
  | second _ ih => exact .first ih

/-- Beside a thread that has ended, the other one is on its own. -/
theorem Interleaved.run_of_ended {r₀ : ρ} (h : Interleaved answer (.ended r₀) t' s r r' s') :
    r₀ = r ∧ t'.run answer s = (r', s') := by
  induction t' generalizing s with
  | ended r₁ =>
    cases h
    exact ⟨rfl, rfl⟩
  | asking q next ih =>
    cases h with
    | second h => exact ih _ h

/-- Where the first question is the last one of its thread, that thread comes first. -/
theorem Interleaved.runs_of_last {q : Q} {next : A q → Thread Q A ρ} {r₀ : ρ}
    (hlast : next (answer q s).1 = .ended r₀)
    (h : Interleaved answer (next (answer q s).1) t' (answer q s).2 r r' s') :
    (asking q next).run answer s = (r, (answer q s).2) ∧
      t'.run answer (answer q s).2 = (r', s') := by
  rw [hlast] at h
  obtain ⟨rfl, hrun⟩ := h.run_of_ended
  refine ⟨?_, hrun⟩
  rw [run, hlast, run]

end

/-! ## Threads over a store -/

end Thread

/-- A store that works answers a command and carries it out. -/
def Command.carryOut (c : Command) (s : Store) : c.Result × Store :=
  (.ok (c.perform s).1, (c.perform s).2)

namespace Thread

variable {ρ ρ' : Type}

/-- No command of a thread has a deadline that its answer could miss. -/
def Unhurried : Thread Command Command.Result ρ → Prop
  | ended _ => True
  | asking c next => (∀ s : Server, s.misses c = false) ∧ ∀ a, (next (.ok a)).Unhurried

theorem unhurried_map {f : ρ → ρ'} {t : Thread Command Command.Result ρ} :
    (t.map f).Unhurried ↔ t.Unhurried := by
  induction t with
  | ended r => exact Iff.rfl
  | asking c next ih => exact and_congr Iff.rfl (forall_congr' fun a => ih (.ok a))

/-- Over a store that works, a program ends as its thread does. -/
theorem exists_runs_thread {α : Type} (p : StoreProgram α) (v : View)
    (h : (p.thread v.clock v.issued).Unhurried) :
    ∃ issued, Runs p v ((p.thread v.clock v.issued).run Command.carryOut v.store).1
      { v with
        issued
        store := ((p.thread v.clock v.issued).run Command.carryOut v.store).2 } := by
  induction p generalizing v with
  | done a => exact ⟨v.issued, Runs.done a⟩
  | fail e => exact ⟨v.issued, Runs.fail e⟩
  | log entry rest ih =>
    obtain ⟨issued, hrest⟩ := ih v h
    exact ⟨issued, Runs.log entry hrest⟩
  | print line rest ih =>
    obtain ⟨issued, hrest⟩ := ih v h
    exact ⟨issued, Runs.print line hrest⟩
  | clock next ih =>
    obtain ⟨issued, hrest⟩ := ih v.clock v h
    exact ⟨issued, Runs.clock hrest⟩
  | freshId next ih =>
    obtain ⟨issued, hrest⟩ := ih _ { v with issued := v.issued + 1 } h
    exact ⟨issued, Runs.freshId hrest⟩
  | ask c next ih =>
    obtain ⟨issued, hrest⟩ := ih _ { v with store := (c.perform v.store).2 } (h.2 _)
    exact ⟨issued, Runs.ask h.1 hrest⟩

end Thread

end SplitTest
