import Mathlib
import SplitTest.Proofs.Experiment.Refinement
import SplitTest.Proofs.Store.Threads

/-
  The commands of a call of the repository.
  A call is refused without a command, or it reads, adds or removes a field with one command, or it
  is an update, which looks for the field first and writes it with a second command. `Shape` says so
  once for all calls (`Operation.shape`), and over a store that works a call in the application does
  what its commands do (`Operation.exists_run_eq`).
-/

namespace SplitTest

open Experiments Thread

/-! ## Programs that ask nothing -/

namespace Program

variable {Q : Type} {A : Q → Type} {α β : Type}

/-- A program that asks nothing. -/
def Silent : Program Q A α → Prop
  | done _ => True
  | fail _ => True
  | log _ rest => rest.Silent
  | print _ rest => rest.Silent
  | clock next => ∀ now, (next now).Silent
  | freshId next => ∀ id, (next id).Silent
  | ask _ _ => False

theorem Silent.bind {p : Program Q A α} {f : α → Program Q A β} (hp : p.Silent)
    (hf : ∀ a, (f a).Silent) : (p >>= f).Silent := by
  change (p.bind f).Silent
  induction p with
  | done a => exact hf a
  | fail e => trivial
  | log entry rest ih => exact ih hp
  | print line rest ih => exact ih hp
  | clock next ih => exact fun now => ih now (hp now)
  | freshId next ih => exact fun id => ih id (hp id)
  | ask q next ih => exact hp.elim

/-- What asks nothing ends at once. -/
theorem Silent.exists_thread_eq {p : Program Q A α} (hp : p.Silent) (now : Instant) (n : Nat) :
    ∃ r, p.thread now n = .ended r := by
  induction p generalizing n with
  | done a => exact ⟨_, rfl⟩
  | fail e => exact ⟨_, rfl⟩
  | log entry rest ih => exact ih hp n
  | print line rest ih => exact ih hp n
  | clock next ih => exact ih now (hp now) n
  | freshId next ih => exact ih _ (hp _) (n + 1)
  | ask q next ih => exact hp.elim

end Program

theorem silent_load (text : String) : (load text).Silent := by
  refine Program.Silent.bind (fun _ => trivial) fun created => ?_
  refine Program.Silent.bind (fun _ => trivial) fun updated => ?_
  cases Experiment.ofTextAt (.utc created) (.utc updated) text <;> trivial

theorem silent_loadAll (texts : List String) : (loadAll texts).Silent := by
  induction texts with
  | nil => trivial
  | cons text texts ih =>
    exact Program.Silent.bind (silent_load text) fun e => Program.Silent.bind ih fun es => trivial

/-- An outcome that is an error. -/
def Outcome.Failed : Outcome → Prop
  | .stored (.error _) | .removed (.error _) | .found (.error _) | .listed (.error _) => True
  | _ => False

namespace Operation

/-- The commands of a call and its outcome, while the clock shows one time and when so many ids have
    been taken. -/
def thread (keys : Keys) (now : Instant) (n : Nat) :
    Operation → Thread Command Command.Result Outcome
  | .create experiment => ((Experiments.create keys experiment).thread now n).map .stored
  | .update experiment => ((Experiments.update keys experiment).thread now n).map .stored
  | .delete id page => ((Experiments.delete keys id page).thread now n).map .removed
  | .get id page => ((Experiments.get keys id page).thread now n).map .found
  | .active page => ((Experiments.active keys page none).thread now n).map .listed

/-- A call that changes nothing. -/
def Reading : Operation → Prop
  | .get _ _ | .active _ => True
  | _ => False

/-- The commands that a call can have: none when it is refused, two when it updates an experiment
    that is there, else one. -/
inductive Shape (keys : Keys) : Operation → Thread Command Command.Result Outcome → Prop
  | refused (op : Operation) (o : Outcome) (ho : o.Failed) : Shape keys op (.ended o)
  | reads {op : Operation} {c : Command} {next : c.Result → Thread Command Command.Result Outcome}
      (hop : op.Reading) (hc : ∀ s, (c.perform s).2 = s) (hmisses : ∀ s : Server, s.misses c = false)
      (hnext : ∀ a, ∃ o, next (.ok a) = .ended o) : Shape keys op (.asking c next)
  | creates {given stored : Experiment} {error : Error} {text : String}
      {next : Command.Result (.addField (keys.page stored.page) stored.id text) →
        Thread Command Command.Result Outcome}
      (hadded : next (.ok true) = .ended (.stored (.ok stored)))
      (htaken : next (.ok false) = .ended (.stored (.error error))) :
      Shape keys (.create (some given)) (.asking _ next)
  | deletes {id page : String}
      {next : Command.Result (.removeField (keys.page page) id) →
        Thread Command Command.Result Outcome}
      (hnext : ∀ there, next (.ok there) = .ended (.removed (.ok there))) :
      Shape keys (.delete id page) (.asking _ next)
  | updates {e stored : Experiment} {error : Error} {text : String}
      {next : Command.Result (.hasField (keys.page e.page) e.id) →
        Thread Command Command.Result Outcome}
      {last : Command.Result (.writeField (keys.page e.page) e.id text) →
        Thread Command Command.Result Outcome}
      (hmissing : next (.ok false) = .ended (.stored (.error error)))
      (hthere : next (.ok true) = .asking (.writeField (keys.page e.page) e.id text) last)
      (hwritten : last (.ok ()) = .ended (.stored (.ok stored))) :
      Shape keys (.update (some e)) (.asking _ next)

section

variable (keys : Keys) (now : Instant) (n : Nat)

theorem shape_create (experiment : Option Experiment) :
    Shape keys (.create experiment) (thread keys now n (.create experiment)) := by
  cases experiment with
  | none => exact .refused _ (.stored (.error .noExperiment)) trivial
  | some e =>
    change Shape keys _ (Thread.map Outcome.stored (Program.thread now
      (Program.require .page (Text.isBlank e.page) >>= fun _ => Program.now >>= fun now =>
        idFor e >>= fun id => _) n))
    cases hpage : Text.isBlank e.page with
    | true => exact .refused _ (.stored (.error (.blank .page))) trivial
    | false =>
      by_cases hid : e.id = ""
      · have hidFor : idFor e = Program.newId := if_pos hid
        rw [hidFor]
        exact .creates rfl rfl
      · have hidFor : idFor e = pure e.id := if_neg hid
        rw [hidFor]
        exact .creates rfl rfl

theorem shape_update (experiment : Option Experiment) :
    Shape keys (.update experiment) (thread keys now n (.update experiment)) := by
  cases experiment with
  | none => exact .refused _ (.stored (.error .noExperiment)) trivial
  | some e =>
    change Shape keys _ (Thread.map Outcome.stored (Program.thread now
      (Program.require .experimentId (Text.isBlank e.id) >>= fun _ =>
        Program.require .page (Text.isBlank e.page) >>= fun _ => _) n))
    cases hid : Text.isBlank e.id with
    | true => exact .refused _ (.stored (.error (.blank .experimentId))) trivial
    | false =>
      cases hpage : Text.isBlank e.page with
      | true => exact .refused _ (.stored (.error (.blank .page))) trivial
      | false => exact .updates rfl rfl rfl

theorem shape_delete (id page : String) :
    Shape keys (.delete id page) (thread keys now n (.delete id page)) := by
  change Shape keys _ (Thread.map Outcome.removed (Program.thread now
    (Experiments.delete keys id page) n))
  unfold Experiments.delete
  cases hid : Text.isBlank id with
  | true => exact .refused _ (.removed (.error (.blank .experimentId))) trivial
  | false =>
    cases hpage : Text.isBlank page with
    | true => exact .refused _ (.removed (.error (.blank .page))) trivial
    | false => exact .deletes fun there => rfl

/-- A call that reads once, and asks nothing after that. -/
theorem shape_of_ask {α : Type} {op : Operation} {c : Command} {next : c.Result → StoreProgram α}
    (outcome : Except Error α → Outcome) (hop : op.Reading) (hc : ∀ s, (c.perform s).2 = s)
    (hmisses : ∀ s : Server, s.misses c = false) (hnext : ∀ a, (next (.ok a)).Silent) :
    Shape keys op (((Program.ask c next).thread now n).map outcome) := by
  refine .reads hop hc hmisses fun a => ?_
  obtain ⟨r, hr⟩ := (hnext a).exists_thread_eq now n
  exact ⟨outcome r, congrArg (Thread.map outcome) hr⟩

theorem shape_get (id page : String) :
    Shape keys (.get id page) (thread keys now n (.get id page)) := by
  change Shape keys _ (Thread.map Outcome.found (Program.thread now
    (Experiments.get keys id page) n))
  unfold Experiments.get
  cases hid : Text.isBlank id with
  | true => exact .refused _ (.found (.error (.blank .experimentId))) trivial
  | false =>
    cases hpage : Text.isBlank page with
    | true => exact .refused _ (.found (.error (.blank .page))) trivial
    | false =>
      refine shape_of_ask (c := .readField (keys.page page) id) keys now n .found trivial
        (fun _ => rfl) (fun _ => rfl) fun _ => Program.Silent.bind trivial fun found => ?_
      split
      · trivial
      · exact Program.Silent.bind (silent_load _) fun e => trivial

theorem shape_active (page : String) :
    Shape keys (.active page) (thread keys now n (.active page)) := by
  change Shape keys _ (Thread.map Outcome.listed (Program.thread now
    (Experiments.active keys page none) n))
  unfold Experiments.active
  cases hpage : Text.isBlank page with
  | true => exact .refused _ (.listed (.error (.blank .page))) trivial
  | false =>
    refine shape_of_ask (c := .readHash (keys.page page) none) keys now n .listed trivial
      (fun _ => rfl) (fun _ => rfl) fun _ => Program.Silent.bind trivial fun fields => ?_
    exact Program.Silent.bind (silent_loadAll _) fun all => trivial

/-- Every call has one of the shapes. -/
theorem shape (op : Operation) : Shape keys op (op.thread keys now n) := by
  cases op with
  | create experiment => exact shape_create keys now n experiment
  | update experiment => exact shape_update keys now n experiment
  | delete id page => exact shape_delete keys now n id page
  | get id page => exact shape_get keys now n id page
  | active page => exact shape_active keys now n page

end

section

variable {keys : Keys} {op op' : Operation} {t t' : Thread Command Command.Result Outcome}

theorem Shape.unhurried (h : Shape keys op t) : t.Unhurried := by
  cases h with
  | refused => trivial
  | reads _ _ hmisses hnext =>
    refine ⟨hmisses, fun a => ?_⟩
    obtain ⟨o, ho⟩ := hnext a
    rw [ho]
    trivial
  | creates hadded htaken =>
    refine ⟨fun _ => rfl, fun added => ?_⟩
    cases added with
    | true => rw [hadded]; trivial
    | false => rw [htaken]; trivial
  | deletes hnext =>
    refine ⟨fun _ => rfl, fun there => ?_⟩
    rw [hnext]
    trivial
  | updates hmissing hthere hwritten =>
    refine ⟨fun _ => rfl, fun there => ?_⟩
    cases there with
    | false => rw [hmissing]; trivial
    | true =>
      rw [hthere]
      refine ⟨fun _ => rfl, fun _ => ?_⟩
      rw [hwritten]
      trivial

end

/-- A computation over a store that works does what its commands do, and leaves the clock as it
    was. -/
theorem exists_map_runStore_eq {α : Type} (p : StoreProgram α) (outcome : Except Error α → Outcome)
    {w : World App} (hw : w.Healthy) {t : Thread Command Command.Result Outcome}
    (ht : (p.thread w.clock w.issued).map outcome = t) (h : t.Unhurried) :
    ∃ issued, ((App.runStore p w).map outcome id).1 =
        (t.run Command.carryOut w.state.server.store).1 ∧
      ((App.runStore p w).map outcome id).2.Shows ⟨w.clock, issued,
        (t.run Command.carryOut w.state.server.store).2⟩ := by
  subst ht
  obtain ⟨issued, hruns⟩ := exists_runs_thread p ⟨w.clock, w.issued, w.state.server.store⟩
    (unhurried_map.1 h)
  obtain ⟨hresult, hshows⟩ := hruns w ⟨hw, rfl, rfl, rfl⟩
  rw [run_map]
  exact ⟨issued, congrArg outcome hresult, hshows⟩

/-- A call over a store that works does what its commands do. -/
theorem exists_run_eq (keys : Keys) (op : Operation) {w : World App} (hw : w.Healthy) :
    ∃ issued, (op.run keys w).1 =
        ((op.thread keys w.clock w.issued).run Command.carryOut w.state.server.store).1 ∧
      (op.run keys w).2.Shows ⟨w.clock, issued,
        ((op.thread keys w.clock w.issued).run Command.carryOut w.state.server.store).2⟩ := by
  have h := (shape keys w.clock w.issued op).unhurried
  cases op <;> exact exists_map_runStore_eq _ _ hw rfl h

end Operation

end SplitTest
