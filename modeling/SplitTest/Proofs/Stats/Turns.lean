import Mathlib
import SplitTest.Proofs.Stats.Codec
import SplitTest.Proofs.Stats.Reading
import SplitTest.Proofs.Store.Threads
import SplitTest.Proofs.Tasks.Basic

/-
  Calls of the statistics service that take turns.
  A `Scene` is what any number of calls have made of store and cache: the store works, the clock
  stands still and nobody else writes. A move starts a call or lets one of the calls ask its next
  question, so a call can be overtaken between its command to the store and the step in which it
  touches the cache. A scene remembers which writes reached the store, in which order, and how many
  of them there were when the call that touched the cache last had its command answered. `Stage`
  says what can be left of a call (`stage_thread`), and how each move changes it.
-/

namespace SplitTest

/-- The answer of cells whose store works, and the cells after it. -/
def Cells.answer (x : Cells) : (q : Statistics.Query) → q.Answer × Cells
  | .store c => (.ok (c.perform x.store).1, { x with store := (c.perform x.store).2 })
  | .fresh now => (x.cache.fresh? now, x)
  | .age now => (x.cache.age? now, x)
  | .stale => (x.cache.stale?, x)
  | .keep value now => ((), { x with cache := x.cache.keep value now })

namespace Statistics

/-- A call of the service. -/
inductive Errand
  | read
  | update (given : PlatformStats)

/-- What is left of a call. -/
abbrev Rest := Thread Query Query.Answer (Except Error PlatformStats)

/-- The whole of a call, while the clock shows one time. -/
def Errand.thread (keys : Keys) (now : Instant) : Errand → Rest
  | read => (get keys).thread now 0
  | update given => (Statistics.update keys given).thread now 0

/-- What the commands of a call write when they are answered. -/
def Errand.writes (now : Instant) : Errand → Query → List PlatformStats
  | update given, .store _ => [given.stamped (.utc now)]
  | _, _ => []

/-- The number of writes that a call has seen after a question: those there are, if its command was
    answered. -/
def Query.seenAfter (seen reached : Nat) : Query → Nat
  | .store _ => reached
  | _ => seen

/-- A call in progress. -/
structure Turn where
  errand : Errand
  rest : Rest
  /-- The number of writes that had reached the store when the command of the call was answered. -/
  seen : Nat

/-- When a call touched the cache. -/
structure Touch where
  /-- The number of writes that had reached the store when the command of the call was answered. -/
  seen : Nat
  /-- The number of writes that had reached the store when the call touched the cache. -/
  reached : Nat

/-- What calls have come to. -/
structure Scene where
  cells : Cells
  turns : List Turn
  /-- The statistics whose writing reached the store, in that order. -/
  writes : List PlatformStats
  /-- The last call that touched the cache. -/
  touched : Option Touch

namespace Scene

/-- Nothing has happened yet. -/
def start (x : Cells) : Scene := ⟨x, [], [], none⟩

/-- A call gets its answer. -/
def answered (σ : Scene) (now : Instant) (i : Nat) (errand : Errand) (seen : Nat) (q : Query)
    (next : q.Answer → Rest) : Scene :=
  let writes := σ.writes ++ errand.writes now q
  { cells := (σ.cells.answer q).2
    turns := σ.turns.set i ⟨errand, next (σ.cells.answer q).1, q.seenAfter seen writes.length⟩
    writes
    touched :=
      match q with
      | .keep _ _ => some ⟨seen, writes.length⟩
      | _ => σ.touched }

/-- What can happen next. -/
inductive Move
  | call (errand : Errand)
  /-- One of the calls asks its next question, if it has one. -/
  | resume (i : Nat)

/-- The scene after a move. -/
def after (keys : Keys) (now : Instant) (σ : Scene) : Move → Scene
  | .call errand => { σ with turns := σ.turns ++ [⟨errand, errand.thread keys now, 0⟩] }
  | .resume i =>
    match σ.turns[i]? with
    | some ⟨errand, .asking q next, seen⟩ => σ.answered now i errand seen q next
    | _ => σ

/-- The scene after some moves. -/
def run (keys : Keys) (now : Instant) (x : Cells) (moves : List Move) : Scene :=
  moves.foldl (after keys now) (start x)

/-- No call is in progress any more. -/
def AtRest (σ : Scene) : Prop := ∀ turn ∈ σ.turns, ∃ r, turn.rest = .ended r

end Scene

/-! ## What is left of a call -/

/-- Whatever the answer is, the call is over. -/
def Last {q : Query} (next : q.Answer → Rest) : Prop := ∀ a, ∃ r, next a = .ended r

/-- The cache keeps a value, and then the call is over. -/
def Keeping (now : Instant) (s : PlatformStats) (rest : Rest) : Prop :=
  ∃ next, rest = .asking (.keep s now) next ∧ Last next

/-- A look into the cache, and then the call is over. -/
def Closing (now : Instant) (rest : Rest) : Prop :=
  (∃ next, rest = .asking (.age now) next ∧ Last next) ∨
    ∃ next, rest = .asking .stale next ∧ Last next

/-- The store is read. The cache keeps what the text stands for, if it stands for anything. -/
def Fetching (keys : Keys) (now : Instant) (rest : Rest) : Prop :=
  ∃ next, rest = .asking (.store (.readText keys.stats)) next ∧
    ∀ text, Closing now (next (.ok text)) ∨
      ∃ s, Stands (.utc now) text s ∧ Keeping now s (next (.ok text))

/-- How far a call is. `Version k s` says that `s` is what a call keeps that saw so many writes, and
    `n` is the number of writes so far. -/
inductive Stage (keys : Keys) (now : Instant) (Version : Nat → PlatformStats → Prop) (n : Nat) :
    Turn → Prop
  | looking {seen : Nat} {next : Query.Answer (.fresh now) → Rest}
      (hhit : ∀ s, Closing now (next (some s))) (hmiss : Fetching keys now (next none)) :
      Stage keys now Version n ⟨.read, .asking (.fresh now) next, seen⟩
  | fetching {seen : Nat} {rest : Rest} (h : Fetching keys now rest) :
      Stage keys now Version n ⟨.read, rest, seen⟩
  | writing {given : PlatformStats} {seen : Nat}
      {next : Query.Answer (.store (.writeText keys.stats (given.stamped (.utc now)).render)) → Rest}
      (hgiven : given.Accepted) (h : Keeping now (given.stamped (.utc now)) (next (.ok ()))) :
      Stage keys now Version n ⟨.update given, .asking _ next, seen⟩
  | keeping {errand : Errand} {s : PlatformStats} {seen : Nat} {rest : Rest}
      (hversion : Version seen s) (hseen : seen ≤ n) (h : Keeping now s rest) :
      Stage keys now Version n ⟨errand, rest, seen⟩
  | closing {errand : Errand} {seen : Nat} {rest : Rest} (h : Closing now rest) :
      Stage keys now Version n ⟨errand, rest, seen⟩
  | done {errand : Errand} {seen : Nat} (r : Except Error PlatformStats) :
      Stage keys now Version n ⟨errand, .ended r, seen⟩

section

variable {keys : Keys} {now : Instant} {Version Version' : Nat → PlatformStats → Prop} {n n' : Nat}

/-- Writes that come later leave a call where it is. -/
theorem Stage.mono {turn : Turn} (h : Stage keys now Version n turn) (hn : n ≤ n')
    (hversion : ∀ k ≤ n, ∀ s, Version k s → Version' k s) : Stage keys now Version' n' turn := by
  cases h with
  | looking hhit hmiss => exact .looking hhit hmiss
  | fetching h => exact .fetching h
  | writing hgiven h => exact .writing hgiven h
  | keeping hv hseen h => exact .keeping (hversion _ hseen _ hv) (hseen.trans hn) h
  | closing h => exact .closing h
  | done r => exact .done r

/-- Decoding asks nothing: what follows goes on with what the text stands for. -/
theorem thread_decode {α : Type} (text : Option String)
    (f : Except Error (Option PlatformStats) → ServiceProgram α) (issued : Nat) :
    ((overStore (decode text)).attempt >>= f).thread now issued =
      (f (decoded (.utc now) text)).thread now issued := by
  unfold decode decoded
  cases text.filter (· != "") with
  | none => rfl
  | some text =>
    simp only [overStore, Bind.bind, Program.now, Program.bind, Program.embed, Program.attempt,
      Program.thread]
    cases PlatformStats.ofText (.utc now) text <;> rfl

/-- Where the cache has nothing fresh, the store is read. -/
theorem fetching_refresh (keys : Keys) (now : Instant) :
    Fetching keys now ((refresh keys now).thread now 0) := by
  refine ⟨_, rfl, fun text => ?_⟩
  change Closing now (((overStore (decode text)).attempt >>= _).thread now 0) ∨
    ∃ s, _ ∧ Keeping now s (((overStore (decode text)).attempt >>= _).thread now 0)
  rw [thread_decode]
  cases hdecoded : decoded (.utc now) text with
  | error e =>
    refine Or.inl (Or.inr ⟨_, rfl, fun stale => ?_⟩)
    cases stale <;> exact ⟨_, rfl⟩
  | ok found =>
    refine Or.inr ⟨_, stands_iff.2 ⟨found, hdecoded, rfl⟩, ?_⟩
    cases found <;> exact ⟨_, rfl, fun _ => ⟨_, rfl⟩⟩

/-- A call at its start. -/
theorem stage_thread {errand : Errand} (h : ∀ given, errand = .update given → given.Accepted) :
    Stage keys now Version n ⟨errand, errand.thread keys now, 0⟩ := by
  cases errand with
  | read =>
    exact .looking (fun s => Or.inl ⟨_, rfl, fun age => ⟨_, rfl⟩⟩) (fetching_refresh keys now)
  | update given => exact .writing (h given rfl) ⟨_, rfl, fun _ => ⟨_, rfl⟩⟩

end

end Statistics

end SplitTest
