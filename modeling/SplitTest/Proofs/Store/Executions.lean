import Mathlib
import SplitTest.Program

/-
  The ways in which a program can end.
  `Ends step p x r x'` says that `p`, started on `x`, can end with `r` and leave `x'`, when every
  question is answered as the relation `step` allows. The clock may show any time whenever it is
  read, and the new ids are arbitrary; `EndsIssuing` says of these too which ones there can be. What
  follows is how executions are put together, and what an execution of each kind of program was.
-/

namespace SplitTest

namespace Program

variable {Q : Type} {A : Q → Type} {α β σ : Type}

/-- One way in which a program can end, when `issue` allows the new ids and `step` the answers. The
    clock is arbitrary: every reading of it has a time of its own. -/
inductive EndsIssuing (issue : String → σ → σ → Prop) (step : (q : Q) → A q → σ → σ → Prop) :
    Program Q A α → σ → Except Error α → σ → Prop
  | done (a : α) (x : σ) : EndsIssuing issue step (.done a) x (.ok a) x
  | fail (e : Error) (x : σ) : EndsIssuing issue step (.fail e) x (.error e) x
  | log {entry : Entry} {rest : Program Q A α} {x x' : σ} {r : Except Error α}
      (h : EndsIssuing issue step rest x r x') : EndsIssuing issue step (.log entry rest) x r x'
  | print {line : String} {rest : Program Q A α} {x x' : σ} {r : Except Error α}
      (h : EndsIssuing issue step rest x r x') : EndsIssuing issue step (.print line rest) x r x'
  | clock {next : Instant → Program Q A α} {x x' : σ} {r : Except Error α} (now : Instant)
      (h : EndsIssuing issue step (next now) x r x') : EndsIssuing issue step (.clock next) x r x'
  | freshId {next : String → Program Q A α} {x mid x' : σ} {r : Except Error α} (id : String)
      (hid : issue id x mid) (h : EndsIssuing issue step (next id) mid r x') :
      EndsIssuing issue step (.freshId next) x r x'
  | ask {q : Q} {next : A q → Program Q A α} {a : A q} {x mid x' : σ} {r : Except Error α}
      (ha : step q a x mid) (h : EndsIssuing issue step (next a) mid r x') :
      EndsIssuing issue step (.ask q next) x r x'

/-- One way in which a program can end, when `step` allows the answers. The clock and the new ids
    are arbitrary. -/
abbrev Ends (step : (q : Q) → A q → σ → σ → Prop) :
    Program Q A α → σ → Except Error α → σ → Prop :=
  EndsIssuing (fun _ x x' => x' = x) step

namespace EndsIssuing

variable {issue : String → σ → σ → Prop} {step : (q : Q) → A q → σ → σ → Prop} {x mid x' : σ}

/-- Programs one after the other, when the first one ends with a result. -/
theorem bind {p : Program Q A α} {f : α → Program Q A β} {a : α} {r : Except Error β}
    (hp : EndsIssuing issue step p x (.ok a) mid) (hf : EndsIssuing issue step (f a) mid r x') :
    EndsIssuing issue step (p >>= f) x r x' := by
  change EndsIssuing issue step (p.bind f) x r x'
  generalize hr : (Except.ok a : Except Error α) = first at hp
  induction hp with
  | done a' x =>
    cases hr
    exact hf
  | fail e x => cases hr
  | log _ ih => exact .log (ih hf hr)
  | print _ ih => exact .print (ih hf hr)
  | clock now _ ih => exact .clock now (ih hf hr)
  | freshId id hid _ ih => exact .freshId id hid (ih hf hr)
  | ask ha _ ih => exact .ask ha (ih hf hr)

/-- Programs one after the other: the first one fails and nothing follows, or the second one goes on
    from what the first one ends with. -/
theorem bind_cases {p : Program Q A α} {f : α → Program Q A β} {r : Except Error β}
    (h : EndsIssuing issue step (p >>= f) x r x') :
    (∃ e, EndsIssuing issue step p x (.error e) x' ∧ r = .error e) ∨
      ∃ a mid, EndsIssuing issue step p x (.ok a) mid ∧ EndsIssuing issue step (f a) mid r x' := by
  change EndsIssuing issue step (p.bind f) x r x' at h
  induction p generalizing x with
  | done a => exact Or.inr ⟨a, _, .done a _, h⟩
  | fail e =>
    cases h
    exact Or.inl ⟨e, .fail e _, rfl⟩
  | log entry rest ih =>
    cases h with
    | log h =>
      rcases ih h with ⟨e, hp, hr⟩ | ⟨a, mid, hp, hf⟩
      · exact Or.inl ⟨e, .log hp, hr⟩
      · exact Or.inr ⟨a, mid, .log hp, hf⟩
  | print line rest ih =>
    cases h with
    | print h =>
      rcases ih h with ⟨e, hp, hr⟩ | ⟨a, mid, hp, hf⟩
      · exact Or.inl ⟨e, .print hp, hr⟩
      · exact Or.inr ⟨a, mid, .print hp, hf⟩
  | clock next ih =>
    cases h with
    | clock now h =>
      rcases ih now h with ⟨e, hp, hr⟩ | ⟨a, mid, hp, hf⟩
      · exact Or.inl ⟨e, .clock now hp, hr⟩
      · exact Or.inr ⟨a, mid, .clock now hp, hf⟩
  | freshId next ih =>
    cases h with
    | freshId id hid h =>
      rcases ih id h with ⟨e, hp, hr⟩ | ⟨a, mid, hp, hf⟩
      · exact Or.inl ⟨e, .freshId id hid hp, hr⟩
      · exact Or.inr ⟨a, mid, .freshId id hid hp, hf⟩
  | ask q next ih =>
    cases h with
    | ask ha h =>
      rcases ih _ h with ⟨e, hp, hr⟩ | ⟨a, mid, hp, hf⟩
      · exact Or.inl ⟨e, .ask ha hp, hr⟩
      · exact Or.inr ⟨a, mid, .ask ha hp, hf⟩

/-- An attempt ends with what the program ends with. -/
theorem of_attempt {p : Program Q A α} {r : Except Error (Except Error α)}
    (h : EndsIssuing issue step p.attempt x r x') :
    ∃ result, r = .ok result ∧ EndsIssuing issue step p x result x' := by
  induction p generalizing x with
  | done a =>
    cases h
    exact ⟨_, rfl, .done a _⟩
  | fail e =>
    cases h
    exact ⟨_, rfl, .fail e _⟩
  | log entry rest ih =>
    cases h with
    | log h =>
      obtain ⟨result, hr, hp⟩ := ih h
      exact ⟨result, hr, .log hp⟩
  | print line rest ih =>
    cases h with
    | print h =>
      obtain ⟨result, hr, hp⟩ := ih h
      exact ⟨result, hr, .print hp⟩
  | clock next ih =>
    cases h with
    | clock now h =>
      obtain ⟨result, hr, hp⟩ := ih now h
      exact ⟨result, hr, .clock now hp⟩
  | freshId next ih =>
    cases h with
    | freshId id hid h =>
      obtain ⟨result, hr, hp⟩ := ih id h
      exact ⟨result, hr, .freshId id hid hp⟩
  | ask q next ih =>
    cases h with
    | ask ha h =>
      obtain ⟨result, hr, hp⟩ := ih _ h
      exact ⟨result, hr, .ask ha hp⟩

theorem of_attempt_bind {p : Program Q A α} {f : Except Error α → Program Q A β}
    {r : Except Error β} (h : EndsIssuing issue step (p.attempt >>= f) x r x') :
    ∃ result mid, EndsIssuing issue step p x result mid ∧
      EndsIssuing issue step (f result) mid r x' := by
  rcases h.bind_cases with ⟨e, hp, -⟩ | ⟨result, mid, hp, hf⟩
  · obtain ⟨_, hr, -⟩ := hp.of_attempt
    cases hr
  · obtain ⟨_, hr, hp⟩ := hp.of_attempt
    cases hr
    exact ⟨result, mid, hp, hf⟩

theorem of_report_bind {entry : Entry} {p : Program Q A α} {r : Except Error α}
    (h : EndsIssuing issue step (report entry >>= fun _ => p) x r x') :
    EndsIssuing issue step p x r x' := by
  cases h with
  | log h => exact h

theorem of_say_bind {line : String} {p : Program Q A α} {r : Except Error α}
    (h : EndsIssuing issue step (say line >>= fun _ => p) x r x') :
    EndsIssuing issue step p x r x' := by
  cases h with
  | print h => exact h

theorem of_now_bind {f : Instant → Program Q A α} {r : Except Error α}
    (h : EndsIssuing issue step (now >>= f) x r x') :
    ∃ time, EndsIssuing issue step (f time) x r x' := by
  cases h with
  | clock time h => exact ⟨time, h⟩

theorem of_reportAll_bind {entries : List Entry} {p : Program Q A α} {r : Except Error α}
    (h : EndsIssuing issue step (reportAll entries >>= fun _ => p) x r x') :
    EndsIssuing issue step p x r x' := by
  induction entries with
  | nil => exact h
  | cons entry entries ih =>
    cases h with
    | log h => exact ih h

/-- A result or an error that is at hand is the only end. -/
theorem of_ofExcept {result r : Except Error α}
    (h : EndsIssuing issue step (ofExcept result) x r x') : r = result ∧ x' = x := by
  cases result <;> cases h <;> exact ⟨rfl, rfl⟩

theorem of_question_bind {q : Q} {f : A q → Program Q A α} {r : Except Error α}
    (h : EndsIssuing issue step (question q >>= f) x r x') :
    ∃ a mid, step q a x mid ∧ EndsIssuing issue step (f a) mid r x' := by
  cases h with
  | ask ha h => exact ⟨_, _, ha, h⟩

end EndsIssuing

end Program

end SplitTest
