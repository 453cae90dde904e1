import SplitTest.Allocation
import SplitTest.Assignment.Basic

/-
  Assigning a visitor to all experiments of a page.
  The experiments come from a source, which is asked once. A deadline covers the asking: one that
  is not positive has passed before the source is asked at all.
-/

namespace SplitTest

open Program

variable {Q : Type} {A : Q → Type}

/-- Something that lists the experiments of a page, within a deadline if there is one. -/
abbrev Source (Q : Type) (A : Q → Type) :=
  String → Option Binary64 → Program Q A (List Experiment)

/-- A source with the deadline that holds when a call names none. -/
structure Assigner (Q : Type) (A : Q → Type) where
  source : Source Q A
  deadline : Option Binary64

namespace Assigner

/-- An assigner needs a source. -/
def ofSource? (source : Option (Source Q A)) (deadline : Option Binary64) :
    Except Error (Assigner Q A) :=
  match source with
  | some source => .ok ⟨source, deadline⟩
  | none => .error .noSource

/-- The user of a request; a blank one is none. -/
def userOf (r : Request) : Option String :=
  r.userId.filter fun u => !Text.isBlank u

/-- What a visitor is known by: the user, or a new id. -/
def keyOf (user : Option String) : Program Q A String :=
  match user with
  | some u => pure u
  | none => newId

/-- Whether a deadline has passed before anything was asked. -/
def hasPassed : Option Binary64 → Bool
  | none => false
  | some deadline => deadline.le .zero

/-- Asks the source within a deadline. -/
def read (source : Source Q A) (page : String) (deadline : Option Binary64) :
    Program Q A (List Experiment) :=
  if hasPassed deadline then .fail .timedOut else source page deadline

/-- Assigns a visitor to every experiment of a list, in order. -/
def assignAll (key : String) : List Experiment → Program Q A (List AssignedExperiment)
  | [] => pure []
  | e :: es => do
    let a ← assign (some e) (some key)
    let rest ← assignAll key es
    pure (e.assigned a.variant :: rest)

/-- A request that must be given, with its page, which must not be blank. -/
def given (request : Option Request) : Program Q A (Request × String) :=
  match request with
  | none => .fail .noRequest
  | some r =>
    match r.page with
    | some page => if Text.isBlank page then .fail (.blank .page) else .done (r, page)
    | none => .fail (.blank .page)

/-- Answers a request. The deadline of the call goes before that of the assigner. -/
def respond (a : Assigner Q A) (request : Option Request) (deadline : Option Binary64) :
    Program Q A Response := do
  let (r, page) ← given request
  let user := userOf r
  let key ← keyOf user
  let shown := user.getD "(none)"
  report (.info s!"Getting experiments for page '{page}', userId: {shown}")
  let experiments ← read a.source page (deadline.or a.deadline)
  let assigned ← assignAll key experiments
  report (.info s!"Assigned {assigned.length} experiments for session {key}")
  pure ⟨key, assigned⟩

end Assigner

end SplitTest
