import SplitTest.Schema.Fault
import SplitTest.Number.Binary64

/-
  What can go wrong.
  An error is its cause; `Error.message` words it. `refusesArgument` says which errors mean that
  the caller passed something unusable, rather than that something failed.
-/

namespace SplitTest

-- The powers here are those of whole numbers, whichever library stands behind `^`.
attribute [local instance (high)] instPowNat

/-- A class of failures that has no kind of its own. -/
structure FailureClass where
  name : String
  /-- The class is derived from that of refused values, and it is not that of faulty documents. -/
  refusesValue : Bool
  deriving DecidableEq, Repr

namespace FailureClass

/-- The names of common classes that are derived from that of refused values. -/
def refusals : List String :=
  ["UnicodeError", "UnicodeDecodeError", "UnicodeEncodeError", "UnicodeTranslateError",
    "JSONDecodeError"]

/-- A class of which only the name is known. -/
def ofName (name : String) : FailureClass := ⟨name, refusals.contains name⟩

instance : Coe String FailureClass := ⟨ofName⟩

instance : Coe FailureClass String := ⟨name⟩

end FailureClass

/-- The kinds of failure that a store reports. Each of the named ones is one class alone: a failure
of a class that is derived from it is `other`. -/
inductive FailureKind
  | connection
  | os
  | timeout
  | runtime
  | lookup
  /-- The store refused a value it was given. -/
  | value
  | other (kind : FailureClass)
  deriving DecidableEq, Repr

/-- Whether a failure counts as the refusal of a value: it is of that class or of a derived one. -/
def FailureKind.refusesValue : FailureKind → Bool
  | value => true
  | other kind => kind.refusesValue
  | connection | os | timeout | runtime | lookup => false

/-- A failure reported by a store. -/
structure Failure where
  kind : FailureKind
  message : String
  deriving DecidableEq, Repr

/-- What a blank text was given for. -/
inductive Subject
  | page
  | experimentId
  | bucketingKey
  deriving DecidableEq, Repr

def Subject.name : Subject → String
  | .page => "page"
  | .experimentId => "experiment id"
  | .bucketingKey => "bucketing key"

/-- The causes of errors. -/
inductive Error
  /-- No experiment was given. -/
  | noExperiment
  /-- No request was given. -/
  | noRequest
  /-- No source of experiments was given. -/
  | noSource
  /-- A text that must say something is missing or blank. -/
  | blank (subject : Subject)
  /-- The experiment has no variant to assign. -/
  | noVariants (id : String)
  /-- The page has an experiment of that id already. -/
  | conflict (id page : String)
  /-- The page has no experiment of that id. -/
  | notFound (id page : String)
  /-- A document has faults. -/
  | invalidDocument (faults : List Fault)
  /-- There is no connection to the store. -/
  | notConnected
  /-- The deadline passed first. -/
  | timedOut
  /-- The store failed. -/
  | store (failure : Failure)
  /-- A lifetime of so many days cannot be held. -/
  | lifetimeTooLong (days : Int)
  /-- A lifetime that is no number. -/
  | lifetimeNotANumber
  /-- A lifetime without end. -/
  | lifetimeInfinite
  /-- A moment that the calendar does not have. -/
  | momentOutOfRange
  deriving DecidableEq, Repr

namespace Error

/-- The longest lifetime, in days. -/
def longestLifetime : Nat := 999999999

/-- The wording of an error. The faults of a document are listed elsewhere. -/
def message : Error → String
  | noExperiment => "experiment must not be None"
  | noRequest => "request must not be None"
  | noSource => "repo must not be None"
  | blank subject => s!"{subject.name} must not be empty"
  | noVariants id => s!"experiment '{id}' has no variants to assign"
  | conflict id page => s!"experiment '{id}' already exists on page '{page}'"
  | notFound id page => s!"experiment '{id}' not found on page '{page}'"
  | invalidDocument _ => "<validation error>"
  | notConnected => "Redis client is not initialised, call connect() first"
  | timedOut => ""
  | store failure => failure.message
  | lifetimeTooLong days =>
    if -(2 ^ (31 : Nat)) ≤ days ∧ days < 2 ^ (31 : Nat) then
      s!"days={days}; must have magnitude <= {longestLifetime}"
    else "Python int too large to convert to C int"
  | lifetimeNotANumber => "cannot convert float NaN to integer"
  | lifetimeInfinite => "cannot convert float infinity to integer"
  | momentOutOfRange => "date value out of range"

/-- Whether the error says that an argument was unusable. Documents with faults do not count:
they come from the store, not from the caller. A failure of the store counts if it is the refusal
of a value, of whatever class. -/
def refusesArgument : Error → Bool
  | noExperiment | noRequest | noSource | blank _ | conflict _ _ | lifetimeNotANumber => true
  | store failure => failure.kind.refusesValue
  | _ => false

end Error

end SplitTest
