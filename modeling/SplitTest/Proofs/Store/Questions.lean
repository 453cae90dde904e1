import Mathlib
import SplitTest.Proofs.Experiment.Calls
import SplitTest.Proofs.Store.Outages
import SplitTest.Stats.Service

/-
  The questions that a program asks.
  `Asks P p` says that `P` holds of every question of `p`, whatever the answers are. One lemma for
  each way to put programs together, and one for each operation: the commands that it sends are
  about the keys of its environment, and those of an operation that only looks change nothing.
-/

namespace SplitTest

namespace Program

variable {Q R : Type} {A : Q → Type} {B : R → Type} {α β : Type} {P P' : Q → Prop}

/-- Every question satisfies `P`. -/
def Asks (P : Q → Prop) : Program Q A α → Prop
  | done _ => True
  | fail _ => True
  | log _ rest => rest.Asks P
  | print _ rest => rest.Asks P
  | clock next => ∀ now, (next now).Asks P
  | freshId next => ∀ id, (next id).Asks P
  | ask q next => P q ∧ ∀ a, (next a).Asks P

theorem Asks.bind {p : Program Q A α} {f : α → Program Q A β} (hp : p.Asks P)
    (hf : ∀ a, (f a).Asks P) : (p >>= f).Asks P := by
  change (p.bind f).Asks P
  induction p with
  | done a => exact hf a
  | fail e => trivial
  | log entry rest ih => exact ih hp
  | print line rest ih => exact ih hp
  | clock next ih => exact fun now => ih now (hp now)
  | freshId next ih => exact fun id => ih id (hp id)
  | ask q next ih => exact ⟨hp.1, fun a => ih a (hp.2 a)⟩

theorem Asks.attempt {p : Program Q A α} (hp : p.Asks P) : p.attempt.Asks P := by
  induction p with
  | done a => trivial
  | fail e => trivial
  | log entry rest ih => exact ih hp
  | print line rest ih => exact ih hp
  | clock next ih => exact fun now => ih now (hp now)
  | freshId next ih => exact fun id => ih id (hp id)
  | ask q next ih => exact ⟨hp.1, fun a => ih a (hp.2 a)⟩

theorem Asks.embed {question : Q → R} {answer : ∀ q, B (question q) → A q} {P : R → Prop}
    {p : Program Q A α} (hp : p.Asks fun q => P (question q)) :
    (p.embed question answer).Asks P := by
  induction p with
  | done a => trivial
  | fail e => trivial
  | log entry rest ih => exact ih hp
  | print line rest ih => exact ih hp
  | clock next ih => exact fun now => ih now (hp now)
  | freshId next ih => exact fun id => ih id (hp id)
  | ask q next ih => exact ⟨hp.1, fun b => ih _ (hp.2 _)⟩

theorem Asks.mono {p : Program Q A α} (hp : p.Asks P) (h : ∀ q, P q → P' q) : p.Asks P' := by
  induction p with
  | done a => trivial
  | fail e => trivial
  | log entry rest ih => exact ih hp
  | print line rest ih => exact ih hp
  | clock next ih => exact fun now => ih now (hp now)
  | freshId next ih => exact fun id => ih id (hp id)
  | ask q next ih => exact ⟨h q hp.1, fun a => ih a (hp.2 a)⟩

/-- What every answer to the questions of a program upholds, the whole program upholds. -/
theorem Ends.invariant {σ : Type} {step : (q : Q) → A q → σ → σ → Prop} {x x' : σ}
    {R : σ → σ → Prop} (hrefl : ∀ x, R x x) (htrans : ∀ {x y z}, R x y → R y z → R x z)
    (hstep : ∀ {q a x y}, P q → step q a x y → R x y) {p : Program Q A α} {r : Except Error α}
    (h : Ends step p x r x') (hp : p.Asks P) : R x x' := by
  induction h with
  | done | fail => exact hrefl _
  | log _ ih => exact ih hp
  | print _ ih => exact ih hp
  | clock now _ ih => exact ih (hp now)
  | freshId id hid _ ih =>
    cases hid
    exact ih (hp id)
  | ask ha _ ih => exact htrans (hstep hp.1 ha) (ih (hp.2 _))

/-- What answering the questions of a program upholds, a run of it upholds. -/
theorem Asks.run_invariant {σ : Type} {answer : (q : Q) → World σ → A q × World σ} {R : σ → σ → Prop}
    (hrefl : ∀ s, R s s) (htrans : ∀ {s s' s''}, R s s' → R s' s'' → R s s'')
    (hanswer : ∀ q w, P q → R w.state (answer q w).2.state) {p : Program Q A α} (hp : p.Asks P)
    (w : World σ) : R w.state (p.run answer w).2.state := by
  induction p generalizing w with
  | done a => exact hrefl _
  | fail e => exact hrefl _
  | log entry rest ih => exact ih hp { w with log := w.log ++ [entry] }
  | print line rest ih => exact ih hp { w with printed := w.printed ++ [line] }
  | clock next ih => exact ih _ (hp w.clock) w
  | freshId next ih => exact ih _ (hp _) { w with issued := w.issued + 1 }
  | ask q next ih => exact htrans (hanswer q w hp.1) (ih _ (hp.2 _) _)

theorem Silent.asks {p : Program Q A α} (hp : p.Silent) : p.Asks P := by
  induction p with
  | done a => trivial
  | fail e => trivial
  | log entry rest ih => exact ih hp
  | print line rest ih => exact ih hp
  | clock next ih => exact fun now => ih now (hp now)
  | freshId next ih => exact fun id => ih id (hp id)
  | ask q next => exact hp.elim

theorem silent_require (subject : Subject) (missing : Bool) :
    (require subject missing : Program Q A Unit).Silent := by
  unfold require
  split_ifs <;> trivial

theorem silent_reportAll (entries : List Entry) :
    (reportAll entries : Program Q A Unit).Silent := by
  induction entries with
  | nil => trivial
  | cons entry rest ih => exact ih

theorem silent_ofExcept (r : Except Error α) : (ofExcept r : Program Q A α).Silent := by
  cases r <;> trivial

theorem silent_assign (experiment : Option Experiment) (key : Option String) :
    (assign experiment key : Program Q A Allocation).Silent := by
  unfold assign
  split
  · exact Silent.bind (silent_reportAll _) fun _ => trivial
  · exact silent_ofExcept _

end Program

open Program

/-! ## Commands -/

namespace Command

/-- The key that a command is about. -/
def key? : Command → Option String
  | ping => none
  | readText key | writeText key _ | readHash key _ | readField key _ | hasField key _
  | writeField key _ _ | addField key _ _ | removeField key _ => some key

/-- A command that only looks. -/
def Looks : Command → Prop
  | ping | readText _ | readHash _ _ | readField _ _ | hasField _ _ => True
  | writeText _ _ | writeField _ _ _ | addField _ _ _ | removeField _ _ => False

theorem Looks.perform_eq {c : Command} (hc : c.Looks) (s : Store) : (c.perform s).2 = s := by
  cases c with
  | ping | readText | readHash | readField | hasField => rfl
  | writeText | writeField | addField | removeField => exact hc.elim

end Command

/-- A computation that sends only commands that look leaves the store as it was. -/
theorem keeps_of_asks {α : Type} {p : StoreProgram α} (hp : p.Asks Command.Looks) : Keeps p := by
  intro s s' r h
  refine (Exec.iff_ends.1 h).invariant (R := fun s s' => s' = s) (fun _ => rfl)
    (fun h h' => h'.trans h) ?_ hp
  intro c result s s' hc hanswers
  rcases hanswers with ⟨-, rfl⟩ | ⟨outage, -, rfl⟩
  · exact hc.perform_eq s
  · rfl

theorem Program.Silent.keeps {α : Type} {p : StoreProgram α} (hp : p.Silent) : Keeps p :=
  keeps_of_asks hp.asks

/-- A key of an environment: that of a page or that of the statistics. -/
def Keys.Uses (keys : Keys) (key : String) : Prop :=
  key = keys.stats ∨ ∃ page, key = keys.page page

/-- A command about a key of an environment. -/
def Keys.Covers (keys : Keys) (c : Command) : Prop := ∃ key ∈ c.key?, keys.Uses key

/-- A command about a key of an environment that only looks. -/
def Keys.Views (keys : Keys) (c : Command) : Prop := keys.Covers c ∧ c.Looks

theorem Keys.covers_of_page (keys : Keys) {c : Command} {page : String}
    (h : c.key? = some (keys.page page)) : keys.Covers c :=
  ⟨_, h, Or.inr ⟨page, rfl⟩⟩

theorem Keys.covers_of_stats (keys : Keys) {c : Command} (h : c.key? = some keys.stats) :
    keys.Covers c :=
  ⟨_, h, Or.inl rfl⟩

/-- A command that is sent is the only question. -/
theorem asks_send {P : Command → Prop} {c : Command} (hc : P c) : (StoreProgram.send c).Asks P := by
  refine ⟨hc, fun result => ?_⟩
  cases result <;> trivial

/-! ## The experiments -/

namespace Experiments

theorem silent_given (experiment : Option Experiment) : (given experiment).Silent := by
  cases experiment <;> trivial

theorem silent_idFor (e : Experiment) : (idFor e).Silent := by
  unfold idFor
  split_ifs
  · exact fun _ => trivial
  · trivial

variable (keys : Keys)

/-- Creating an experiment asks nothing but to add a field to the hash of a page. -/
theorem asks_create_of {P : Command → Prop}
    (hP : ∀ page id text, P (.addField (keys.page page) id text)) (experiment : Option Experiment) :
    (create keys experiment).Asks P := by
  refine (silent_given _).asks.bind fun e => (silent_require _ _).asks.bind fun _ => ?_
  refine Asks.bind (fun _ => trivial) fun now => (silent_idFor e).asks.bind fun id => ?_
  refine (asks_send (hP _ _ _)).bind fun added => ?_
  cases added <;> trivial

theorem asks_create (experiment : Option Experiment) : (create keys experiment).Asks keys.Covers :=
  asks_create_of keys (fun _ _ _ => keys.covers_of_page rfl) experiment

theorem asks_update (experiment : Option Experiment) : (update keys experiment).Asks keys.Covers := by
  refine (silent_given _).asks.bind fun e => (silent_require _ _).asks.bind fun _ => ?_
  refine (silent_require _ _).asks.bind fun _ => ?_
  refine (asks_send (keys.covers_of_page rfl)).bind fun there => ?_
  cases there with
  | false => trivial
  | true =>
    refine Asks.bind (fun _ => trivial) fun now => ?_
    exact (asks_send (keys.covers_of_page rfl)).bind fun _ => trivial

theorem asks_delete (id page : String) : (delete keys id page).Asks keys.Covers := by
  refine (silent_require _ _).asks.bind fun _ => (silent_require _ _).asks.bind fun _ => ?_
  exact (asks_send (keys.covers_of_page rfl)).bind fun _ => trivial

theorem asks_get (id page : String) : (get keys id page).Asks keys.Views := by
  refine (silent_require _ _).asks.bind fun _ => (silent_require _ _).asks.bind fun _ => ?_
  refine (asks_send ⟨keys.covers_of_page rfl, trivial⟩).bind fun found => ?_
  split
  · trivial
  · exact (silent_load _).asks.bind fun _ => trivial

theorem asks_active (page : String) (deadline : Option Binary64) :
    (active keys page deadline).Asks keys.Views := by
  refine (silent_require _ _).asks.bind fun _ => Asks.bind ⟨⟨keys.covers_of_page rfl, trivial⟩, ?_⟩
    fun fields => (silent_loadAll _).asks.bind fun all => trivial
  intro result
  cases result with
  | ok fields => trivial
  | error outage => cases outage <;> trivial

end Experiments

/-! ## The assignments -/

namespace Assigner

variable {Q : Type} {A : Q → Type} {P : Q → Prop}

theorem silent_keyOf (user : Option String) : (keyOf user : Program Q A String).Silent := by
  cases user with
  | none => exact fun _ => trivial
  | some u => trivial

theorem silent_given (request : Option Request) :
    (given request : Program Q A (Request × String)).Silent := by
  unfold given
  split
  · trivial
  · split
    · split_ifs <;> trivial
    · trivial

theorem silent_assignAll (key : String) (es : List Experiment) :
    (assignAll key es : Program Q A (List AssignedExperiment)).Silent := by
  induction es with
  | nil => trivial
  | cons e es ih =>
    exact Silent.bind (silent_assign _ _) fun a => Silent.bind ih fun rest => trivial

/-- Answering a request asks nothing but the source. -/
theorem asks_respond {a : Assigner Q A} (ha : ∀ page deadline, (a.source page deadline).Asks P)
    (request : Option Request) (deadline : Option Binary64) : (a.respond request deadline).Asks P := by
  refine (silent_given request).asks.bind fun r => (silent_keyOf _).asks.bind fun key => ?_
  refine Asks.bind (p := report _) trivial fun _ => ?_
  refine Asks.bind ?_ fun es => (silent_assignAll key es).asks.bind fun assigned => trivial
  unfold read
  split_ifs
  · trivial
  · exact ha _ _

end Assigner

/-! ## The statistics -/

namespace Statistics

/-- A query that is no command, or a command that satisfies `P`. -/
def Query.Over (P : Command → Prop) : Query → Prop
  | .store c => P c
  | _ => True

theorem asks_overStore {α : Type} {P : Command → Prop} {p : StoreProgram α} (hp : p.Asks P) :
    (overStore p).Asks (Query.Over P) :=
  Asks.embed hp

/-- The commands among the queries of a program over the store alone are those that it sends. -/
theorem asks_of_overStore {α : Type} {P : Command → Prop} {p : StoreProgram α}
    (h : (overStore p).Asks (Query.Over P)) : p.Asks P := by
  induction p with
  | done a => trivial
  | fail e => trivial
  | log entry rest ih => exact ih h
  | print line rest ih => exact ih h
  | clock next ih => exact fun now => ih now (h now)
  | freshId next ih => exact fun id => ih id (h id)
  | ask q next ih => exact ⟨h.1, fun a => ih a (h.2 a)⟩

variable (keys : Keys)

theorem asks_current : (current keys).Asks keys.Views := by
  refine (asks_send ⟨keys.covers_of_stats rfl, trivial⟩).bind fun text => ?_
  unfold decode
  split
  · trivial
  · refine Asks.bind (fun _ => trivial) fun now => ?_
    split <;> trivial

theorem asks_save (s : PlatformStats) : (save keys s).Asks keys.Covers :=
  (asks_send (keys.covers_of_stats rfl)).bind fun _ => trivial

theorem asks_get : (get keys).Asks (Query.Over keys.Views) := by
  refine Asks.bind (fun _ => trivial) fun now => Asks.bind ⟨trivial, fun _ => trivial⟩ fun fresh => ?_
  cases fresh with
  | some s => exact Asks.bind ⟨trivial, fun _ => trivial⟩ fun age => trivial
  | none =>
    refine Asks.bind trivial fun _ => ?_
    refine (asks_overStore (asks_current keys)).attempt.bind fun result => ?_
    cases result with
    | error e =>
      refine Asks.bind trivial fun _ => Asks.bind ⟨trivial, fun _ => trivial⟩ fun stale => ?_
      cases stale <;> trivial
    | ok found => cases found <;> exact ⟨trivial, fun _ => trivial⟩

theorem asks_update (s : PlatformStats) : (update keys s).Asks (Query.Over keys.Covers) := by
  refine Asks.bind (fun _ => trivial) fun now => ?_
  refine (asks_overStore (asks_save keys _)).bind fun saved => ?_
  exact Asks.bind ⟨trivial, fun _ => trivial⟩ fun _ => trivial

end Statistics

end SplitTest
