import SplitTest.Store.Command

/-
  The store behind its connection.
  A server may be failing, which every command then reports, and slow to read hashes. It records
  every command that reached it.
-/

namespace SplitTest

/-- What a server records. -/
inductive Call
  | command (c : Command)
  /-- The reading of a hash was given up. -/
  | cancelled (key : String)
  | closed
  deriving DecidableEq, Repr

/-- A store with its connection. -/
structure Server where
  store : Store
  /-- Whether a client for it is at hand. -/
  hasClient : Bool
  /-- The failure that every command meets, if there is one. -/
  failure : Option Failure
  /-- The seconds that reading a hash takes. -/
  delay : Binary64
  calls : List Call

namespace Server

/-- A new server: empty, working and prompt. -/
def fresh (hasClient : Bool) : Server :=
  ⟨.empty, hasClient, none, .zero, []⟩

def record (s : Server) (call : Call) : Server :=
  { s with calls := s.calls ++ [call] }

/-- Whether the answer to a command comes too late. -/
def misses (s : Server) : Command → Bool
  | .readHash _ deadline => isLate s.delay deadline
  | _ => false

/-- The record of a command that was given up. -/
def cancellation : Command → List Call
  | .readHash key _ => [.cancelled key]
  | _ => []

/-- Answers a command that reached the server. -/
def answer (c : Command) (s : Server) : c.Result × Server :=
  if s.misses c then
    (.error .late, { s with calls := s.calls ++ .command c :: cancellation c })
  else
    let s := s.record (.command c)
    match s.failure with
    | some f => (.error (.failed f), s)
    | none =>
      let (a, store) := c.perform s.store
      (.ok a, { s with store })

/-- Sends a command through the client, if there is one. -/
def send (c : Command) (s : Server) : c.Result × Server :=
  if s.hasClient then s.answer c else (.error .disconnected, s)

/-- A working server with a client answers every command without a deadline from its store. -/
theorem answer_of_healthy {c : Command} {s : Server} (hf : s.failure = none)
    (hm : s.misses c = false) :
    s.answer c = (.ok (c.perform s.store).1,
      { s.record (.command c) with store := (c.perform s.store).2 }) := by
  simp [answer, hm, record, hf]

end Server

end SplitTest
