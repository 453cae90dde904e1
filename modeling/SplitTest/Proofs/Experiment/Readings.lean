import Mathlib
import SplitTest.Experiment.Repository
import SplitTest.Proofs.Experiment.Undated
import SplitTest.Proofs.Store.Executions

/-
  A page is read document by document.
  The moments at which a document is read are its own, so a listing may be made of documents that
  were read at different times. `Listed` says what a listing can come to, given the answer to the
  question for the hash; it is exactly what the executions of `Experiments.active` end with
  (`active_cases`, `ends_active`).
-/

namespace SplitTest

open Experiment

/-- A text that is the document of no experiment. -/
def NoDocument (text : String) : Prop := ∀ e, ¬ReadsAs text e

/-- What the listing of a page can come to, given the answer to the question for its hash. -/
inductive Listed (page : String) :
    Except Outage (Table String) → Except Error (List Experiment) → Prop
  | refused (outage : Outage) : Listed page (.error outage) (.error outage.toError)
  | unreadable {fields : Table String} {text : String} (faults : List Fault)
      (htext : text ∈ Experiments.documents fields) (h : NoDocument text) :
      Listed page (.ok fields) (.error (.invalidDocument faults))
  | listing {fields : Table String} {all : List Experiment}
      (h : List.Forall₂ ReadsAs (Experiments.documents fields) all) :
      Listed page (.ok fields) (.ok (Experiments.listing page all))

/-- A page is listed when each of its documents is read, at whatever times. -/
theorem listed_ok_iff {page : String} {fields : Table String} {listed : List Experiment} :
    Listed page (.ok fields) (.ok listed) ↔
      ∃ all, List.Forall₂ ReadsAs (Experiments.documents fields) all ∧
        Experiments.listing page all = listed := by
  constructor
  · intro h
    cases h with
    | listing h => exact ⟨_, h, rfl⟩
  · rintro ⟨all, h, rfl⟩
    exact .listing h

/-- A page is refused when one of its documents cannot be read. -/
theorem Listed.error_cases {page : String} {fields : Table String} {e : Error}
    (h : Listed page (.ok fields) (.error e)) :
    (∃ faults, e = .invalidDocument faults) ∧ ∃ text ∈ Experiments.documents fields,
      NoDocument text := by
  cases h with
  | unreadable faults htext h => exact ⟨⟨faults, rfl⟩, _, htext, h⟩

namespace Experiments

variable {σ : Type} {issue : String → σ → σ → Prop}
  {step : (c : Command) → c.Result → σ → σ → Prop} {x x' : σ}

/-! ## Documents -/

theorem load_cases {text : String} {r : Except Error Experiment}
    (h : (load text).EndsIssuing issue step x r x') :
    x' = x ∧ ((∃ e, r = .ok e ∧ ReadsAs text e) ∨
      (∃ faults, r = .error (.invalidDocument faults)) ∧ NoDocument text) := by
  obtain ⟨created, h⟩ := h.of_now_bind
  obtain ⟨updated, h⟩ := h.of_now_bind
  cases hread : ofTextAt (.utc created) (.utc updated) text with
  | value e =>
    rw [hread] at h
    cases h
    exact ⟨rfl, Or.inl ⟨e, rfl, created, updated, hread⟩⟩
  | faults faults =>
    rw [hread] at h
    cases h
    refine ⟨rfl, Or.inr ⟨⟨faults, rfl⟩, fun e he => ?_⟩⟩
    obtain ⟨d, hd⟩ := he.exists_ofTextAt (.utc created) (.utc updated)
    rw [hread] at hd
    cases hd

theorem ends_load {text : String} {e : Experiment} (h : ReadsAs text e) (x : σ) :
    (load text).EndsIssuing issue step x (.ok e) x := by
  obtain ⟨created, updated, hread⟩ := h
  refine .clock created (.clock updated ?_)
  dsimp only [Program.bind]
  rw [hread]
  exact .done e x

theorem loadAll_cases {texts : List String} {r : Except Error (List Experiment)}
    (h : (loadAll texts).EndsIssuing issue step x r x') :
    x' = x ∧ ((∃ all, r = .ok all ∧ List.Forall₂ ReadsAs texts all) ∨
      (∃ faults, r = .error (.invalidDocument faults)) ∧ ∃ text ∈ texts, NoDocument text) := by
  induction texts generalizing x x' r with
  | nil =>
    cases h
    exact ⟨rfl, Or.inl ⟨[], rfl, .nil⟩⟩
  | cons text texts ih =>
    rcases h.bind_cases with ⟨error, hload, rfl⟩ | ⟨e, mid, hload, hmore⟩
    · obtain ⟨rfl, ⟨_, ⟨⟩, -⟩ | ⟨⟨faults, ⟨⟩⟩, hnone⟩⟩ := load_cases hload
      exact ⟨rfl, Or.inr ⟨⟨faults, rfl⟩, text, List.mem_cons_self, hnone⟩⟩
    · obtain ⟨rfl, ⟨_, ⟨⟩, he⟩ | ⟨⟨_, ⟨⟩⟩, -⟩⟩ := load_cases hload
      rcases hmore.bind_cases with ⟨error, hrest, rfl⟩ | ⟨all, mid, hrest, hdone⟩
      · obtain ⟨rfl, ⟨_, ⟨⟩, -⟩ | ⟨⟨faults, ⟨⟩⟩, bad, hbad, hnone⟩⟩ := ih hrest
        exact ⟨rfl, Or.inr ⟨⟨faults, rfl⟩, bad, List.mem_cons_of_mem _ hbad, hnone⟩⟩
      · obtain ⟨rfl, ⟨_, ⟨⟩, hall⟩ | ⟨⟨_, ⟨⟩⟩, -⟩⟩ := ih hrest
        cases hdone
        exact ⟨rfl, Or.inl ⟨e :: all, rfl, .cons he hall⟩⟩

theorem ends_loadAll {texts : List String} {all : List Experiment}
    (h : List.Forall₂ ReadsAs texts all) (x : σ) :
    (loadAll texts).EndsIssuing issue step x (.ok all) x := by
  induction h with
  | nil => exact .done [] x
  | cons he _ ih => exact (ends_load he x).bind (ih.bind (.done _ x))

/-! ## Pages -/

variable {keys : Keys} {page : String} {deadline : Option Binary64}

/-- Listing a page asks for its hash, and then reads the documents. -/
theorem active_cases (hpage : Text.isBlank page = false) {r : Except Error (List Experiment)}
    (h : (active keys page deadline).EndsIssuing issue step x r x') :
    ∃ answer, step (.readHash (keys.page page) deadline) answer x x' ∧ Listed page answer r := by
  unfold active at h
  rw [hpage] at h
  cases h with
  | @ask _ _ answer _ mid _ _ hanswer h =>
    refine ⟨answer, ?_⟩
    cases answer with
    | error outage =>
      obtain ⟨rfl, rfl⟩ : r = .error outage.toError ∧ x' = mid := by
        cases outage with
        | late =>
          cases h
          exact ⟨rfl, rfl⟩
        | failed failure =>
          cases h with
          | log h =>
            cases h
            exact ⟨rfl, rfl⟩
        | disconnected =>
          cases h with
          | log h =>
            cases h
            exact ⟨rfl, rfl⟩
      exact ⟨hanswer, .refused outage⟩
    | ok fields =>
      rcases Program.EndsIssuing.bind_cases (p := loadAll (documents fields)) h with
        ⟨e, hload, rfl⟩ | ⟨all, last, hload, hreport⟩
      · obtain ⟨rfl, ⟨_, ⟨⟩, -⟩ | ⟨⟨faults, ⟨⟩⟩, text, htext, hnone⟩⟩ := loadAll_cases hload
        exact ⟨hanswer, .unreadable faults htext hnone⟩
      · obtain ⟨rfl, ⟨_, ⟨⟩, hall⟩ | ⟨⟨_, ⟨⟩⟩, -⟩⟩ := loadAll_cases hload
        cases hreport with
        | log hdone =>
          cases hdone
          exact ⟨hanswer, .listing hall⟩

/-- The documents of a hash may be read at any times. -/
theorem ends_active (hpage : Text.isBlank page = false) {fields : Table String}
    (hanswer : step (.readHash (keys.page page) deadline) (.ok fields) x x')
    {all : List Experiment} (h : List.Forall₂ ReadsAs (documents fields) all) :
    (active keys page deadline).EndsIssuing issue step x (.ok (listing page all)) x' := by
  unfold active
  rw [hpage]
  exact .ask hanswer ((ends_loadAll h x').bind (.log (.done _ x')))

end Experiments

end SplitTest
