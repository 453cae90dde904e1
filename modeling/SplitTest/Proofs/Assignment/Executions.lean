import Mathlib
import SplitTest.Proofs.Assignment.Service
import SplitTest.Proofs.Store.Clocks

/-
  What answering a request comes to, in every execution.
  A request finds out what the visitor is known by, reads the page once, and assigns. Whatever the
  questions are answered with and whatever the clock shows, the response is that to what was read
  (`respond_cases`). In the application the visitor is known by `sessionOf` (`keyOf_cases`).
-/

namespace SplitTest

namespace Assigner

section

variable {Q : Type} {A : Q → Type} {σ : Type} {issue : String → σ → σ → Prop}
  {step : (q : Q) → A q → σ → σ → Prop} {x x' : σ}

theorem assign_cases {experiment : Option Experiment} {key : Option String}
    {r : Except Error Allocation} (h : (assign experiment key).EndsIssuing issue step x r x') :
    r = allocate experiment key ∧ x' = x := by
  unfold assign at h
  split at h
  · next e a hallocate =>
    rw [hallocate]
    cases Program.EndsIssuing.of_reportAll_bind (p := .done a) h
    exact ⟨rfl, rfl⟩
  · exact h.of_ofExcept

theorem assignAll_cases {key : String} {es : List Experiment}
    {r : Except Error (List AssignedExperiment)}
    (h : (assignAll key es).EndsIssuing issue step x r x') :
    r = es.mapM (assignedTo key) ∧ x' = x := by
  induction es generalizing x x' r with
  | nil =>
    cases h
    exact ⟨rfl, rfl⟩
  | cons e es ih =>
    rw [List.mapM_cons, assignedTo]
    rcases h.bind_cases with ⟨error, hassign, rfl⟩ | ⟨a, mid, hassign, hmore⟩
    · obtain ⟨hallocate, rfl⟩ := assign_cases hassign
      rw [← hallocate]
      exact ⟨rfl, rfl⟩
    · obtain ⟨hallocate, rfl⟩ := assign_cases hassign
      rw [← hallocate]
      rcases hmore.bind_cases with ⟨error, hrest, rfl⟩ | ⟨rest, mid, hrest, hdone⟩
      · obtain ⟨hmapped, rfl⟩ := ih hrest
        rw [← hmapped]
        exact ⟨rfl, rfl⟩
      · obtain ⟨hmapped, rfl⟩ := ih hrest
        rw [← hmapped]
        cases hdone
        exact ⟨rfl, rfl⟩

/-- A request for a page that is named ends with the response to what was read. -/
theorem respond_cases {a : Assigner Q A} {page : String} (hpage : Text.isBlank page = false)
    {userId : Option String} {deadline : Option Binary64} {r : Except Error Response}
    (h : (a.respond (some ⟨some page, userId⟩) deadline).EndsIssuing issue step x r x') :
    (∃ e, (keyOf (userOf ⟨some page, userId⟩) : Program Q A String).EndsIssuing issue step x
      (.error e) x') ∨
    ∃ key mid listed,
      (keyOf (userOf ⟨some page, userId⟩) : Program Q A String).EndsIssuing issue step x
        (.ok key) mid ∧
      (read a.source page (deadline.or a.deadline)).EndsIssuing issue step mid listed x' ∧
      r = answered key listed := by
  obtain ⟨before, after, hrespond⟩ := exists_respond_eq (Q := Q) (A := A) hpage userId
  rw [hrespond] at h
  rcases Program.EndsIssuing.bind_cases h with ⟨e, hkey, -⟩ | ⟨key, mid, hkey, hlog⟩
  · exact Or.inl ⟨e, hkey⟩
  · refine Or.inr ⟨key, mid, ?_⟩
    cases hlog with
    | log hmore =>
      rcases Program.EndsIssuing.bind_cases hmore with
        ⟨e, hread, rfl⟩ | ⟨es, mid', hread, hassign⟩
      · exact ⟨.error e, hkey, hread, rfl⟩
      · refine ⟨.ok es, hkey, ?_⟩
        rw [answered_ok]
        rcases Program.EndsIssuing.bind_cases hassign with
          ⟨e, hall, rfl⟩ | ⟨assigned, last, hall, hdone⟩
        · obtain ⟨hmapped, rfl⟩ := assignAll_cases hall
          rw [← hmapped]
          exact ⟨hread, rfl⟩
        · obtain ⟨hmapped, rfl⟩ := assignAll_cases hall
          rw [← hmapped]
          cases hdone with
          | log hdone =>
            cases hdone
            exact ⟨hread, rfl⟩

end

open App

/-- In the application a visitor is known by the user, or by the next id. -/
theorem keyOf_cases {w : World App} {page userId : Option String} {r : Except Error String}
    {x' : Server × Nat}
    (h : (keyOf (userOf ⟨page, userId⟩)).EndsIssuing Issues Replies (desk w) r x') :
    r = .ok (sessionOf w userId) ∧ x'.1 = w.state.server := by
  unfold sessionOf
  unfold keyOf userOf at h
  dsimp only at h
  cases hfilter : userId.filter fun u => !Text.isBlank u with
  | some user =>
    rw [hfilter] at h
    cases h
    exact ⟨rfl, rfl⟩
  | none =>
    rw [hfilter] at h
    cases h with
    | freshId id hid h =>
      obtain ⟨rfl, rfl⟩ := hid
      cases h
      exact ⟨rfl, rfl⟩

end Assigner

end SplitTest
