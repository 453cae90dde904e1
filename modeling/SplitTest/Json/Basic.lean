import SplitTest.Number.Binary64
import SplitTest.Table

/-
  JSON values.
  Whole numbers and doubles are told apart, as the text tells them apart. The fields of an object
  are kept as they are written, in order; a name may appear more than once.
-/

namespace SplitTest

/-- A JSON value without parts. -/
inductive Scalar
  | null
  | bool (b : Bool)
  | int (n : Int)
  | float (x : Binary64)
  | text (s : String)
  deriving DecidableEq, Repr

/-- A JSON value. -/
inductive Json
  | scalar (s : Scalar)
  | array (items : List Json)
  | object (fields : List (String × Json))

end SplitTest
