import SplitTest.Json.Document
import SplitTest.Json.Printer
import SplitTest.Schema.Scalar

/-
  Documents: the text of a value of some kind.
-/

namespace SplitTest

/-- Reads a text as a document; a text that is no JSON has that as its only fault. -/
def Reading.ofText (read : Json → Reading α) (s : String) : Reading α :=
  match Json.parse s.toList with
  | some j => read j
  | none => .fail .jsonInvalid

namespace Json

/-- A text value. -/
def ofText (s : String) : Json := .scalar (.text s)

/-- A whole number. -/
def ofInt (n : Int) : Json := .scalar (.int n)

/-- A double. -/
def ofBinary64 (x : Binary64) : Json := .scalar (.float x)

/-- A truth value. -/
def ofBool (b : Bool) : Json := .scalar (.bool b)

/-- A value that may be absent. -/
def ofOption (f : α → Json) : Option α → Json
  | some a => f a
  | none => .scalar .null

/-- A timestamp, as text. -/
def ofTimestamp (t : Timestamp) : Json := ofText (String.ofList t.render)

end Json

end SplitTest
