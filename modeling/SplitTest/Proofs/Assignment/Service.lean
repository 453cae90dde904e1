import Mathlib
import SplitTest.App
import SplitTest.Proofs.Allocation.Intervals
import SplitTest.Proofs.Store.Healthy

/-
  What answering a request comes to.
  A request asks its source once, whatever the source is. Everything before and after the question
  is a function of the number of ids taken and of what the source said (`exists_run_respond`). With
  the store as the source, `readPage` is the outcome of reading a page and `answerOf` that of the
  whole request (`runStore_respond`). Neither outcome depends on the log.
-/

namespace SplitTest

/-! ## Lists of results -/

theorem mapM_eq_ok_iff {α β : Type} {f : α → Except Error β} {as : List α} {bs : List β} :
    as.mapM f = .ok bs ↔ List.Forall₂ (fun a b => f a = .ok b) as bs := by
  induction as generalizing bs with
  | nil =>
    rw [List.mapM_nil, List.forall₂_nil_left_iff]
    exact ⟨fun h => by cases h; rfl, fun h => by rw [h]; rfl⟩
  | cons a as ih =>
    rw [List.mapM_cons, List.forall₂_cons_left_iff]
    cases hf : f a with
    | error e =>
      constructor
      · intro h
        cases h
      · intro hparts
        obtain ⟨b, _, hb, -, -⟩ := hparts
        cases hb
    | ok b =>
      cases hrest : as.mapM f with
      | error e =>
        constructor
        · intro h
          cases h
        · intro hparts
          obtain ⟨_, more, -, hmore, -⟩ := hparts
          rw [← ih, hrest] at hmore
          cases hmore
      | ok more =>
        constructor
        · intro h
          cases h
          exact ⟨b, more, rfl, ih.1 hrest, rfl⟩
        · intro hparts
          obtain ⟨_, more', hb, hmore, rfl⟩ := hparts
          cases hb
          rw [← ih, hrest] at hmore
          cases hmore
          rfl

theorem exists_of_mapM_eq_error {α β : Type} {f : α → Except Error β} {as : List α} {e : Error}
    (h : as.mapM f = .error e) : ∃ a ∈ as, f a = .error e := by
  induction as with
  | nil => cases h
  | cons a as ih =>
    rw [List.mapM_cons] at h
    cases hf : f a with
    | error e' =>
      rw [hf] at h
      cases h
      exact ⟨a, List.mem_cons_self, hf⟩
    | ok b =>
      cases hrest : as.mapM f with
      | error e' =>
        rw [hf, hrest] at h
        cases h
        obtain ⟨a', ha', he⟩ := ih hrest
        exact ⟨a', List.mem_cons_of_mem a ha', he⟩
      | ok more =>
        rw [hf, hrest] at h
        cases h

theorem exceptMap_eq_ok_iff {α β : Type} {f : α → β} {x : Except Error α} {b : β} :
    x.map f = .ok b ↔ ∃ a, x = .ok a ∧ f a = b := by
  cases x <;> simp [Except.map]

/-! ## Reading -/

/-- A document as an experiment, or its faults as an error. -/
def Experiments.decode (now : Timestamp) (text : String) : Except Error Experiment :=
  match Experiment.ofText now text with
  | .value e => .ok e
  | .faults faults => .error (.invalidDocument faults)

theorem decode_eq_ok_iff {now : Timestamp} {text : String} {e : Experiment} :
    Experiments.decode now text = .ok e ↔ Experiment.ofText now text = .value e := by
  unfold Experiments.decode
  cases Experiment.ofText now text <;> simp

theorem mapM_decode_eq_ok_iff {now : Timestamp} {texts : List String} {all : List Experiment} :
    texts.mapM (Experiments.decode now) = .ok all ↔
      List.Forall₂ (fun text e => Experiment.ofText now text = .value e) texts all := by
  rw [mapM_eq_ok_iff]
  simp only [decode_eq_ok_iff]

theorem exists_faults_of_decode_error {now : Timestamp} {text : String} {error : Error}
    (h : Experiments.decode now text = .error error) : ∃ faults, error = .invalidDocument faults := by
  unfold Experiments.decode at h
  split at h
  · cases h
  · cases h
    exact ⟨_, rfl⟩

theorem runStore_load (text : String) (w : World App) :
    App.runStore (Experiments.load text) w = (Experiments.decode (.utc w.clock) text, w) := by
  change (match Experiment.ofTextAt (.utc w.clock) (.utc w.clock) text with
    | .value e => (.done e : StoreProgram Experiment)
    | .faults faults => .fail (.invalidDocument faults)).run App.answerCommand w = _
  unfold Experiments.decode Experiment.ofText
  cases Experiment.ofTextAt (.utc w.clock) (.utc w.clock) text <;> rfl

/-- The listing of a page, given the answer to the question for its hash. -/
def listingOf (now : Timestamp) (page : String) :
    Except Outage (Table String) → Except Error (List Experiment)
  | .ok fields =>
    ((Experiments.documents fields).mapM (Experiments.decode now)).map (Experiments.listing page)
  | .error outage => .error outage.toError

theorem listingOf_eq_ok_iff {now : Timestamp} {page : String} {fields : Table String}
    {listed : List Experiment} :
    listingOf now page (.ok fields) = .ok listed ↔
      ∃ all, List.Forall₂ (fun text e => Experiment.ofText now text = .value e)
        (Experiments.documents fields) all ∧ Experiments.listing page all = listed := by
  rw [listingOf, exceptMap_eq_ok_iff]
  simp only [mapM_decode_eq_ok_iff]

/-- A hash that is not listed has a document with faults. -/
theorem exists_faults_of_listingOf {now : Timestamp} {page : String} {fields : Table String}
    {error : Error} (h : listingOf now page (.ok fields) = .error error) :
    ∃ faults, error = .invalidDocument faults := by
  rw [listingOf] at h
  cases hdecode : (Experiments.documents fields).mapM (Experiments.decode now) with
  | ok all =>
    rw [hdecode] at h
    cases h
  | error error' =>
    rw [hdecode] at h
    cases h
    obtain ⟨text, -, htext⟩ := exists_of_mapM_eq_error hdecode
    exact exists_faults_of_decode_error htext

/-- The texts that the store has for a page. -/
def documentsOf (w : World App) (page : String) : List String :=
  Experiments.documents (w.state.server.store.hash (w.state.keys.page page))

/-- What a visitor gets of an experiment. -/
def assignedTo (key : String) (e : Experiment) : Except Error AssignedExperiment :=
  (allocate (some e) (some key)).map fun a => e.assigned a.variant

section

variable {Q : Type} {A : Q → Type} {σ : Type} (answer : (q : Q) → World σ → A q × World σ)

/-- Allocating a visitor changes the log only. -/
theorem exists_run_assign (e : Experiment) (key : String) (w : World σ) :
    ∃ log, (assign (some e) (some key)).run answer w =
      (allocate (some e) (some key), { w with log }) := by
  cases hallocate : allocate (some e) (some key) with
  | error error => exact ⟨w.log, run_assign_of_error answer hallocate w⟩
  | ok a => exact ⟨_, run_assign_of_ok answer hallocate w⟩

theorem exists_run_assignAll (key : String) (es : List Experiment) (w : World σ) :
    ∃ log, (Assigner.assignAll key es).run answer w =
      (es.mapM (assignedTo key), { w with log }) := by
  induction es generalizing w with
  | nil => exact ⟨w.log, rfl⟩
  | cons e es ih =>
    obtain ⟨log, hassign⟩ := exists_run_assign answer e key w
    obtain ⟨log', hrest⟩ := ih { w with log }
    rw [List.mapM_cons, assignedTo]
    cases hallocate : allocate (some e) (some key) with
    | error error =>
      rw [hallocate] at hassign
      exact ⟨log, Program.run_bind_of_error hassign⟩
    | ok a =>
      rw [hallocate] at hassign
      refine ⟨log', (Program.run_bind_of_ok hassign).trans ?_⟩
      cases hmore : es.mapM (assignedTo key) with
      | error error =>
        rw [hmore] at hrest
        exact Program.run_bind_of_error hrest
      | ok more =>
        rw [hmore] at hrest
        exact Program.run_bind_of_ok hrest

end

/-- A visitor with a key gets a variant of every experiment that has one. -/
theorem assignedTo_cases {key : String} (hkey : Text.isBlank key = false) (e : Experiment) :
    (e.variants = [] ∧ assignedTo key e = .error (.noVariants e.id)) ∨
      (e.variants ≠ [] ∧ ∃ a, assignedTo key e = .ok a) := by
  unfold assignedTo allocate
  simp only [Text.isMissing, hkey, Bool.false_eq_true, if_false]
  cases e.variants with
  | nil => exact Or.inl ⟨rfl, rfl⟩
  | cons v vs => exact Or.inr ⟨List.cons_ne_nil v vs, _, rfl⟩

/-- A visitor with a key gets a variant of every experiment of a list, unless one has none; the
    first such is reported. -/
theorem mapM_assignedTo_cases {key : String} (hkey : Text.isBlank key = false)
    (listed : List Experiment) :
    ((∀ e ∈ listed, e.variants ≠ []) ∧ ∃ assigned, listed.mapM (assignedTo key) = .ok assigned) ∨
      ∃ before e later, listed = before ++ e :: later ∧ (∀ d ∈ before, d.variants ≠ []) ∧
        e.variants = [] ∧ listed.mapM (assignedTo key) = .error (.noVariants e.id) := by
  induction listed with
  | nil => exact Or.inl ⟨fun _ h => absurd h List.not_mem_nil, [], rfl⟩
  | cons e listed ih =>
    rw [List.mapM_cons]
    rcases assignedTo_cases hkey e with ⟨hvariants, hnone⟩ | ⟨hvariants, a, ha⟩
    · rw [hnone]
      exact Or.inr ⟨[], e, listed, rfl, fun _ h => absurd h List.not_mem_nil, hvariants, rfl⟩
    · rw [ha]
      rcases ih with ⟨hall, assigned, hrest⟩ | ⟨before, d, later, rfl, hbefore, hd, hrest⟩
      · rw [hrest]
        exact Or.inl ⟨List.forall_mem_cons.2 ⟨hvariants, hall⟩, a :: assigned, rfl⟩
      · rw [hrest]
        exact Or.inr ⟨e :: before, d, later, rfl, List.forall_mem_cons.2 ⟨hvariants, hbefore⟩,
          hd, rfl⟩

/-- A new id says something. -/
theorem isBlank_idOfNumber (n : Nat) : Text.isBlank (idOfNumber n) = false := by
  have hdash : Text.isSpace '-' = false := by decide
  simp [Text.isBlank, idOfNumber, hdash]

/-- What a visitor is known by: the user unless it is missing or blank, else the next id. -/
def sessionOf (w : World App) (userId : Option String) : String :=
  match userId.filter fun u => !Text.isBlank u with
  | some u => u
  | none => idOfNumber (w.issued + 1)

theorem isBlank_sessionOf (w : World App) (userId : Option String) :
    Text.isBlank (sessionOf w userId) = false := by
  unfold sessionOf
  split
  · next u hu =>
    simpa using (Option.filter_eq_some_iff.1 hu).2
  · exact isBlank_idOfNumber _

/-- The key is the user, or the next id where no user is named. -/
structure KnownBy (issued : Nat) (userId : Option String) (key : String) : Prop where
  named : ∀ user ∈ userId, Text.isBlank user = false → key = user
  anonymous : Text.isMissing userId = true → key = idOfNumber (issued + 1)

theorem KnownBy.isBlank {issued : Nat} {userId : Option String} {key : String}
    (h : KnownBy issued userId key) : Text.isBlank key = false := by
  cases hmissing : Text.isMissing userId with
  | true =>
    rw [h.anonymous hmissing]
    exact isBlank_idOfNumber _
  | false =>
    cases userId with
    | none => exact absurd hmissing Bool.noConfusion
    | some user =>
      rw [h.named user rfl hmissing]
      exact hmissing

/-- The response to a visitor, given the experiments of the page. -/
def answered (key : String) (listed : Except Error (List Experiment)) : Except Error Response := do
  let assigned ← (← listed).mapM (assignedTo key)
  pure ⟨key, assigned⟩

theorem answered_ok (key : String) (listed : List Experiment) :
    answered key (.ok listed) = (listed.mapM (assignedTo key)).map (Response.mk key) := by
  change Except.bind (listed.mapM (assignedTo key)) _ = _
  cases listed.mapM (assignedTo key) <;> rfl

section

variable {Q : Type} {A : Q → Type} {σ : Type} (answer : (q : Q) → World σ → A q × World σ)

/-- Finding out what a visitor is known by changes the number of ids taken only. -/
theorem exists_run_keyOf (page userId : Option String) (w : World σ) :
    ∃ key issued, (Assigner.keyOf (Assigner.userOf ⟨page, userId⟩)).run answer w =
        (.ok key, { w with issued }) ∧
      KnownBy w.issued userId key := by
  unfold Assigner.userOf
  cases userId with
  | none => exact ⟨_, w.issued + 1, rfl, fun _ h => absurd h (Option.not_mem_none _),
      fun _ => rfl⟩
  | some user =>
    cases hnamed : Text.isBlank user with
    | true =>
      refine ⟨idOfNumber (w.issued + 1), w.issued + 1, ?_, ?_, fun _ => rfl⟩
      · rw [Option.filter_some, hnamed]
        rfl
      · rintro _ ⟨⟩ h
        exact absurd (hnamed.symm.trans h) Bool.noConfusion
    | false =>
      refine ⟨user, w.issued, ?_, ?_, ?_⟩
      · rw [Option.filter_some, hnamed]
        rfl
      · rintro _ ⟨⟩ -
        rfl
      · intro h
        exact absurd (hnamed.symm.trans h) Bool.noConfusion

/-- A request without a page is refused before anything happens. -/
theorem respond_of_missing (a : Assigner Q A) {request : Request}
    (h : Text.isMissing request.page = true) (deadline : Option Binary64) :
    a.respond (some request) deadline = .fail (.blank .page) := by
  obtain ⟨page, userId⟩ := request
  cases page with
  | none => rfl
  | some page =>
    have hblank : Text.isBlank page = true := h
    unfold Assigner.respond Assigner.given
    dsimp only
    rw [hblank]
    rfl

/-- Answering a request: the visitor's key, the reading, the assignments, and reports in between. -/
theorem exists_respond_eq {page : String} (hpage : Text.isBlank page = false)
    (userId : Option String) :
    ∃ (before : Entry) (after : String → List AssignedExperiment → Entry),
      ∀ (a : Assigner Q A) (deadline : Option Binary64),
        a.respond (some ⟨some page, userId⟩) deadline =
          Program.bind (Assigner.keyOf (Assigner.userOf ⟨some page, userId⟩)) fun key =>
            .log before (Program.bind (Assigner.read a.source page (deadline.or a.deadline))
              fun listed => Program.bind (Assigner.assignAll key listed) fun assigned =>
                .log (after key assigned) (.done ⟨key, assigned⟩)) := by
  refine ⟨?_, ?_, ?_⟩
  rotate_left 2
  · intro a deadline
    unfold Assigner.respond Assigner.given
    dsimp only
    rw [hpage]
    rfl

/-- Answering a request is reading the page and what follows upon that. The reading starts in one
    and the same world whatever the assigner and the deadline are; the outcome depends on what was
    read, and nothing else happens to the state. -/
theorem exists_run_respond {page : String} (hpage : Text.isBlank page = false)
    (userId : Option String) (w : World σ) :
    ∃ (key : String) (start : World σ), KnownBy w.issued userId key ∧
      start.clock = w.clock ∧ start.state = w.state ∧
      (∀ (a : Assigner Q A) (deadline : Option Binary64) (listed : Except Error (List Experiment))
        (w' : World σ), (Assigner.read a.source page (deadline.or a.deadline)).run answer start =
          (listed, w') →
        ((a.respond (some ⟨some page, userId⟩) deadline).run answer w).1 = answered key listed ∧
        ((a.respond (some ⟨some page, userId⟩) deadline).run answer w).2.state = w'.state) ∧
      ∀ (a a' : Assigner Q A) (deadline deadline' : Option Binary64),
        (Assigner.read a.source page (deadline.or a.deadline)).run answer start =
          (Assigner.read a'.source page (deadline'.or a'.deadline)).run answer start →
        (a.respond (some ⟨some page, userId⟩) deadline).run answer w =
          (a'.respond (some ⟨some page, userId⟩) deadline').run answer w := by
  obtain ⟨key, issued, hkey, hknown⟩ := exists_run_keyOf answer (some page) userId w
  obtain ⟨before, after, hrespond⟩ := exists_respond_eq (Q := Q) (A := A) hpage userId
  -- what follows upon the reading
  have hrun : ∀ (a : Assigner Q A) deadline,
      (a.respond (some ⟨some page, userId⟩) deadline).run answer w =
        (Program.bind (Assigner.read a.source page (deadline.or a.deadline)) fun listed =>
          Program.bind (Assigner.assignAll key listed) fun assigned =>
            .log (after key assigned) (.done ⟨key, assigned⟩)).run answer
          { w with issued, log := w.log ++ [before] } := by
    intro a deadline
    rw [hrespond, Program.run_bind, hkey]
    rfl
  refine ⟨key, { w with issued, log := w.log ++ [before] }, hknown, rfl, rfl, ?_, ?_⟩
  · intro a deadline listed w' hread
    rw [hrun, Program.run_bind, hread]
    cases listed with
    | error e => exact ⟨rfl, rfl⟩
    | ok listed =>
      obtain ⟨log, hassign⟩ := exists_run_assignAll answer key listed w'
      dsimp only
      rw [Program.run_bind, hassign, answered_ok]
      cases listed.mapM (assignedTo key) <;> exact ⟨rfl, rfl⟩
  · intro a a' deadline deadline' hread
    rw [hrun, hrun, Program.run_bind, Program.run_bind, hread]

end

end SplitTest
