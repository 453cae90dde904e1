import Mathlib
import SplitTest.App
import SplitTest.Proofs.Store.Executions

/-
  Computations in the application while its clock goes on.
  In a run (`App.runStore`) the clock stands still. `App.CanEnd p w r` says that `p` can end with
  `r` in the world `w` when every reading of the clock shows a time of its own, whatever it is.
  Commands are answered by the server and new ids are numbered as in a run, which is one of these
  executions (`canEnd_runStore`).
-/

namespace SplitTest

namespace App

/-- The next id, given the server and the number of ids taken. -/
def Issues (id : String) (x x' : Server × Nat) : Prop :=
  id = idOfNumber (x.2 + 1) ∧ x' = (x.1, x.2 + 1)

/-- The answer of the server to a command. -/
def Replies (c : Command) (result : c.Result) (x x' : Server × Nat) : Prop :=
  result = (x.1.send c).1 ∧ x' = ((x.1.send c).2, x.2)

/-- What the answers and the new ids of the application depend on. -/
def desk (w : World App) : Server × Nat := (w.state.server, w.issued)

/-- One way in which a computation can end in the application, whose clock may show another time
    whenever it is read. -/
def CanEnd {α : Type} (p : StoreProgram α) (w : World App) (r : Except Error α) : Prop :=
  ∃ x', p.EndsIssuing Issues Replies (desk w) r x'

end App

open App

/-- A run in the application is one of the ways in which a computation can end. -/
theorem canEnd_runStore {α : Type} (p : StoreProgram α) (w : World App) :
    CanEnd p w (App.runStore p w).1 := by
  refine ⟨desk (App.runStore p w).2, ?_⟩
  induction p generalizing w with
  | done a => exact .done a _
  | fail e => exact .fail e _
  | log entry rest ih => exact .log (ih { w with log := w.log ++ [entry] })
  | print line rest ih => exact .print (ih { w with printed := w.printed ++ [line] })
  | clock next ih => exact .clock w.clock (ih w.clock w)
  | freshId next ih => exact .freshId _ ⟨rfl, rfl⟩ (ih _ { w with issued := w.issued + 1 })
  | ask c next ih => exact .ask ⟨rfl, rfl⟩ (ih _ (App.answerCommand c w).2)

end SplitTest
