import SplitTest.Error
import SplitTest.Number.Binary64
import SplitTest.Program
import SplitTest.Store.Basic

/-
  Commands: what a store can be asked to do, one atomic step each.
  A command is answered, or there is an outage: the store failed, the answer came after the
  deadline, or there was no connection to send the command on.
-/

namespace SplitTest

/-- One command to the store. -/
inductive Command
  | ping
  | readText (key : String)
  | writeText (key text : String)
  /-- Reads a whole hash, within a number of seconds if a deadline is given. -/
  | readHash (key : String) (deadline : Option Binary64)
  | readField (key field : String)
  | hasField (key field : String)
  | writeField (key field text : String)
  /-- Writes a field unless it is there. -/
  | addField (key field text : String)
  | removeField (key field : String)
  deriving DecidableEq, Repr

/-- Why a command was not answered. -/
inductive Outage
  | disconnected
  | late
  | failed (failure : Failure)
  deriving DecidableEq, Repr

/-- The error that an outage is for the caller. -/
def Outage.toError : Outage → Error
  | disconnected => .notConnected
  | late => .timedOut
  | failed failure => .store failure

namespace Command

/-- What a command is answered with. -/
abbrev Answer : Command → Type
  | ping => Unit
  | readText _ => Option String
  | writeText _ _ => Unit
  | readHash _ _ => Table String
  | readField _ _ => Option String
  | hasField _ _ => Bool
  | writeField _ _ _ => Unit
  | addField _ _ _ => Bool
  | removeField _ _ => Bool

/-- An answer, or the outage in its place. -/
abbrev Result (c : Command) : Type := Except Outage c.Answer

/-- What a command does to a store that works, and its answer. -/
def perform : (c : Command) → Store → c.Answer × Store
  | ping, s => ((), s)
  | readText key, s => (s.text? key, s)
  | writeText key text, s => ((), s.setText key text)
  | readHash key _, s => (s.hash key, s)
  | readField key field, s => (s.field? key field, s)
  | hasField key field, s => (s.hasField key field, s)
  | writeField key field text, s => ((), s.setField key field text)
  | addField key field text, s => (!s.hasField key field, s.addField key field text)
  | removeField key field, s => (s.hasField key field, s.removeField key field)

end Command

/-- Whether an answer after `delay` seconds misses a deadline. Under a deadline that is no number
nothing can be waited for. -/
def isLate (delay : Binary64) : Option Binary64 → Bool
  | none => false
  | some .nan => Binary64.zero.lt delay
  | some deadline => deadline.lt delay

/-- A computation over the store. -/
abbrev StoreProgram (α : Type) := Program Command Command.Result α

namespace StoreProgram

/-- Sends one command; an outage is an error. -/
def send (c : Command) : StoreProgram c.Answer :=
  .ask c fun result =>
    match result with
    | .ok a => .done a
    | .error outage => .fail outage.toError

end StoreProgram

end SplitTest
