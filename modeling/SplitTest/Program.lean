import SplitTest.Error
import SplitTest.Log
import SplitTest.Time.Timestamp

/-
  Programs: computations that ask their surroundings one question at a time.
  Everything that an operation does to the outside is a step of its program, so the same
  definition can be run to its end, cut short by a failing answer, or interleaved with others.
  `Q` are the questions and `A q` the answers to the question `q`; reading the clock, taking a
  fresh id and reporting are open to every program.
-/

namespace SplitTest

/-- A computation of an `α` that may ask questions and may fail. -/
inductive Program (Q : Type) (A : Q → Type) (α : Type)
  | done (a : α)
  | fail (e : Error)
  | log (entry : Entry) (rest : Program Q A α)
  | print (line : String) (rest : Program Q A α)
  | clock (next : Instant → Program Q A α)
  | freshId (next : String → Program Q A α)
  | ask (q : Q) (next : A q → Program Q A α)

namespace Program

variable {Q : Type} {A : Q → Type} {α β σ : Type}

/-- Goes on with the result of a program. -/
def bind : Program Q A α → (α → Program Q A β) → Program Q A β
  | done a, f => f a
  | fail e, _ => fail e
  | log entry rest, f => log entry (rest.bind f)
  | print line rest, f => print line (rest.bind f)
  | clock next, f => clock fun now => (next now).bind f
  | freshId next, f => freshId fun id => (next id).bind f
  | ask q next, f => ask q fun a => (next a).bind f

instance : Monad (Program Q A) where
  pure := done
  bind := bind

/-- Turns a failure into a result. -/
def attempt : Program Q A α → Program Q A (Except Error α)
  | done a => done (.ok a)
  | fail e => done (.error e)
  | log entry rest => log entry rest.attempt
  | print line rest => print line rest.attempt
  | clock next => clock fun now => (next now).attempt
  | freshId next => freshId fun id => (next id).attempt
  | ask q next => ask q fun a => (next a).attempt

/-- The same program among more questions. -/
def embed {R : Type} {B : R → Type} (question : Q → R) (answer : ∀ q, B (question q) → A q) :
    Program Q A α → Program R B α
  | done a => done a
  | fail e => fail e
  | log entry rest => log entry (rest.embed question answer)
  | print line rest => print line (rest.embed question answer)
  | clock next => clock fun now => (next now).embed question answer
  | freshId next => freshId fun id => (next id).embed question answer
  | ask q next => ask (question q) fun b => (next (answer q b)).embed question answer

/-- Reports one entry. -/
def report (entry : Entry) : Program Q A Unit := log entry (done ())

/-- Reports several entries. -/
def reportAll : List Entry → Program Q A Unit
  | [] => done ()
  | entry :: rest => log entry (reportAll rest)

/-- Writes one line of output. -/
def say (line : String) : Program Q A Unit := print line (done ())

/-- The time. -/
def now : Program Q A Instant := clock done

/-- An id that was not taken before. -/
def newId : Program Q A String := freshId done

/-- Asks one question. -/
def question (q : Q) : Program Q A (A q) := ask q done

/-- A result or an error as a program. -/
def ofExcept : Except Error α → Program Q A α
  | .ok a => done a
  | .error e => fail e

/-- Fails when a text says nothing. -/
def require (subject : Subject) (missing : Bool) : Program Q A Unit :=
  if missing then fail (.blank subject) else done ()

end Program

/-- The surroundings of a program: the clock, the ids taken so far, what was reported and written,
and the state that questions are answered from. -/
structure World (σ : Type) where
  clock : Instant
  issued : Nat
  log : List Entry
  printed : List String
  state : σ

/-- A number in hexadecimal, with zeros in front up to a width. -/
def hexPadded (width n : Nat) : List Char :=
  let digits := Nat.toDigits 16 n
  List.replicate (width - digits.length) '0' ++ digits

/-- The id of a number: 32 hexadecimal digits in groups of 8, 4, 4, 4 and 12. -/
def idOfNumber (n : Nat) : String :=
  let digits := hexPadded 32 n
  let group (start size : Nat) := (digits.drop start).take size
  String.ofList (group 0 8 ++ '-' :: (group 8 4 ++ '-' :: (group 12 4 ++ '-' ::
    (group 16 4 ++ '-' :: group 20 12))))

namespace Program

variable {Q : Type} {A : Q → Type} {α β σ : Type}

/-- Runs a program to its end, with a function that answers questions from the state. The clock
stands still: this is one of the executions of the program, the one in which all its readings of the
clock are the same. `Program.Ends` is about all of them, with a time of its own at every reading. -/
def run (answer : (q : Q) → World σ → A q × World σ) :
    Program Q A α → World σ → Except Error α × World σ
  | done a, w => (.ok a, w)
  | fail e, w => (.error e, w)
  | log entry rest, w => rest.run answer { w with log := w.log ++ [entry] }
  | print line rest, w => rest.run answer { w with printed := w.printed ++ [line] }
  | clock next, w => (next w.clock).run answer w
  | freshId next, w =>
    (next (idOfNumber (w.issued + 1))).run answer { w with issued := w.issued + 1 }
  | ask q next, w =>
    let (a, w) := answer q w
    (next a).run answer w

theorem run_bind (answer : (q : Q) → World σ → A q × World σ) (p : Program Q A α)
    (f : α → Program Q A β) (w : World σ) :
    (p.bind f).run answer w =
      match p.run answer w with
      | (.ok a, w) => (f a).run answer w
      | (.error e, w) => (.error e, w) := by
  induction p generalizing w with
  | done a => rfl
  | fail e => rfl
  | log entry rest ih => exact ih _
  | print line rest ih => exact ih _
  | clock next ih => exact ih _ _
  | freshId next ih => exact ih _ _
  | ask q next ih => exact ih _ _

theorem run_attempt (answer : (q : Q) → World σ → A q × World σ) (p : Program Q A α)
    (w : World σ) :
    p.attempt.run answer w = (.ok (p.run answer w).1, (p.run answer w).2) := by
  induction p generalizing w with
  | done a => rfl
  | fail e => rfl
  | log entry rest ih => exact ih _
  | print line rest ih => exact ih _
  | clock next ih => exact ih _ _
  | freshId next ih => exact ih _ _
  | ask q next ih => exact ih _ _

end Program

end SplitTest
