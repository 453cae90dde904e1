import Mathlib
import SplitTest.Proofs.Experiment.Catalogue

/-
  The repository refines a map.
  `Follows` says which outcomes a catalogue gives for a sequence of calls, and it allows one
  sequence of outcomes only (`follows_unique`). The repository, run by the application on an empty
  store that works, gives exactly these (`repository_refines_catalogue`), whatever the clock shows
  at each call, as long as every experiment that it is handed was read from a document and has
  finite doubles only.
-/

namespace SplitTest

open Entries

/-- A call of the repository. -/
inductive Operation
  | create (experiment : Option Experiment)
  | update (experiment : Option Experiment)
  | delete (id page : String)
  | get (id page : String)
  | active (page : String)

/-- What a call ends with. -/
inductive Outcome
  | stored (result : Except Error Experiment)
  | removed (result : Except Error Bool)
  | found (result : Except Error (Option Experiment))
  | listed (result : Except Error (List Experiment))

/-! ## What the map gives -/

/-- The outcome of a call at some time, and the catalogue after it. -/
inductive Gives (now : Instant) (c : Catalogue) : Operation → Outcome → Catalogue → Prop
  | create (experiment : Option Experiment) :
      Gives now c (.create experiment) (.stored (c.create now experiment).1)
        (c.create now experiment).2
  | update (experiment : Option Experiment) :
      Gives now c (.update experiment) (.stored (c.update now experiment).1)
        (c.update now experiment).2
  | delete (id page : String) :
      Gives now c (.delete id page) (.removed (c.delete id page).1) (c.delete id page).2
  | get (id page : String) : Gives now c (.get id page) (.found (c.get id page)) c
  | activeBlank {page : String} (h : Text.isBlank page = true) :
      Gives now c (.active page) (.listed (.error (.blank .page))) c
  | active {page : String} {listed : List Experiment} (h : Text.isBlank page = false)
      (hlisted : c.entries.Lists page listed) : Gives now c (.active page) (.listed (.ok listed)) c

/-- The outcomes of calls one after the other, each at its own time. -/
inductive Follows : Catalogue → List (Instant × Operation) → List Outcome → Prop
  | nil (c : Catalogue) : Follows c [] []
  | cons {c c' : Catalogue} {now : Instant} {op : Operation} {outcome : Outcome}
      {steps : List (Instant × Operation)} {outcomes : List Outcome}
      (hfirst : Gives now c op outcome c') (hrest : Follows c' steps outcomes) :
      Follows c ((now, op) :: steps) (outcome :: outcomes)

theorem gives_unique {now : Instant} {c c' c'' : Catalogue} {op : Operation} {o o' : Outcome}
    (h : Gives now c op o c') (h' : Gives now c op o' c'') : o = o' ∧ c' = c'' := by
  cases h with
  | create | update | delete | get =>
    cases h'
    exact ⟨rfl, rfl⟩
  | activeBlank h =>
    cases h' with
    | activeBlank => exact ⟨rfl, rfl⟩
    | active h' => exact absurd (h.symm.trans h') Bool.noConfusion
  | active h hlisted =>
    cases h' with
    | activeBlank h' => exact absurd (h.symm.trans h') Bool.noConfusion
    | active _ hlisted' => exact ⟨by rw [hlisted.unique hlisted'], rfl⟩

/-- The map gives one sequence of outcomes only. -/
theorem follows_unique {c : Catalogue} {steps : List (Instant × Operation)} {os os' : List Outcome}
    (h : Follows c steps os) (h' : Follows c steps os') : os = os' := by
  induction h generalizing os' with
  | nil =>
    cases h'
    rfl
  | cons hfirst _ ih =>
    cases h' with
    | cons hfirst' hrest' =>
      obtain ⟨rfl, rfl⟩ := gives_unique hfirst hfirst'
      rw [ih hrest']

/-! ## What the repository does -/

namespace Operation

/-- Runs a call in the application. -/
def run (keys : Keys) (w : World App) : Operation → Outcome × World App
  | .create experiment => (App.runStore (Experiments.create keys experiment) w).map .stored id
  | .update experiment => (App.runStore (Experiments.update keys experiment) w).map .stored id
  | .delete key page => (App.runStore (Experiments.delete keys key page) w).map .removed id
  | .get key page => (App.runStore (Experiments.get keys key page) w).map .found id
  | .active page => (App.runStore (Experiments.active keys page none) w).map .listed id

/-- Runs calls one after the other; the clock shows any time at each of them. -/
def runAll (keys : Keys) : List (Instant × Operation) → World App → List Outcome × World App
  | [], w => ([], w)
  | (now, op) :: steps, w =>
    let (outcome, w) := op.run keys { w with clock := now }
    let (outcomes, w) := runAll keys steps w
    (outcome :: outcomes, w)

/-- A call that may change the store. An experiment that is handed over was read from a document. -/
def Writes : Operation → Prop
  | .create experiment => ∀ e ∈ experiment, e.Accepted
  | .update experiment => ∀ e ∈ experiment, e.Accepted
  | .delete _ _ => True
  | _ => False

/-- An experiment that is handed over was read from a document and has finite doubles only. -/
def Admissible : Operation → Prop
  | .create experiment => ∀ e ∈ experiment, e.Accepted ∧ e.Finite
  | .update experiment => ∀ e ∈ experiment, e.Accepted ∧ e.Finite
  | _ => True

end Operation

/-! ## The simulation -/

/-- Every entry has finite doubles only. -/
def Catalogue.Finite (c : Catalogue) : Prop := ∀ page id, ∀ e ∈ c.entries page id, e.Finite

theorem Catalogue.Finite.set {c : Catalogue} (h : c.Finite) (page id : String)
    {e : Option Experiment} (he : ∀ x ∈ e, x.Finite) : (c.set page id e).Finite := by
  intro p i x hx
  simp only [Catalogue.set, Entries.set] at hx
  split_ifs at hx
  · exact he x hx
  · exact h p i x hx

theorem Catalogue.Finite.taking {c : Catalogue} (h : c.Finite) (e : Experiment) :
    (c.taking e).Finite := by
  unfold Catalogue.Finite
  rw [entries_taking]
  exact h

/-- Calls keep all doubles finite. -/
theorem finite_of_gives {now : Instant} {c c' : Catalogue} {op : Operation} {o : Outcome}
    (h : Gives now c op o c') (hc : c.Finite) (hop : op.Admissible) : c'.Finite := by
  cases h with
  | create experiment =>
    cases experiment with
    | none => exact hc
    | some e =>
      simp only [Catalogue.create]
      split_ifs
      · exact hc
      · split
        · exact hc.taking e
        · refine (hc.taking e).set _ _ ?_
          rintro _ ⟨⟩
          exact (hop e rfl).2
  | update experiment =>
    cases experiment with
    | none => exact hc
    | some e =>
      simp only [Catalogue.update]
      split_ifs
      · exact hc
      · exact hc
      · split
        · exact hc
        · refine hc.set _ _ ?_
          rintro _ ⟨⟩
          exact (hop e rfl).2
  | delete id page =>
    unfold Catalogue.delete
    split_ifs
    · exact hc
    · exact hc
    · exact hc.set page id fun x hx => by cases hx
  | get | activeBlank | active => exact hc

/-- What a call ends with is what its computation ends with. -/
theorem map_runStore {α : Type} {p : StoreProgram α} {v v' : View} {r : Except Error α}
    (hruns : Runs p v r v') {w : World App} (hw : w.Shows v) (outcome : Except Error α → Outcome) :
    ∃ w', (App.runStore p w).map outcome id = (outcome r, w') ∧ w'.Shows v' := by
  obtain ⟨hresult, hshows⟩ := hruns w hw
  exact ⟨_, Prod.ext (congrArg outcome hresult) rfl, hshows⟩

/-- A call that may change the store does to it what it does to the catalogue, and ends as the
    catalogue says. -/
theorem write_refines {keys : Keys} {v : View} {c : Catalogue} (h : Models keys v c)
    {op : Operation} (hop : op.Writes) {w : World App} (hw : w.Shows v) :
    ∃ v' c', Gives v.clock c op (op.run keys w).1 c' ∧ Models keys v' c' ∧
      (op.run keys w).2.Shows v' := by
  cases op with
  | create experiment =>
    obtain ⟨v', hruns, hmodels⟩ := runs_create h fun e he => (hop e he).sized
    obtain ⟨w', hrun, hshows⟩ := map_runStore hruns hw .stored
    rw [Operation.run, hrun]
    exact ⟨v', _, .create experiment, hmodels, hshows⟩
  | update experiment =>
    obtain ⟨v', hruns, hmodels⟩ := runs_update h fun e he => (hop e he).sized
    obtain ⟨w', hrun, hshows⟩ := map_runStore hruns hw .stored
    rw [Operation.run, hrun]
    exact ⟨v', _, .update experiment, hmodels, hshows⟩
  | delete id page =>
    obtain ⟨v', hruns, hmodels⟩ := runs_delete h id page
    obtain ⟨w', hrun, hshows⟩ := map_runStore hruns hw .removed
    rw [Operation.run, hrun]
    exact ⟨v', _, .delete id page, hmodels, hshows⟩
  | get id page => exact hop.elim
  | active page => exact hop.elim

/-- One call does to the store what it does to the catalogue, and ends as the catalogue says. -/
theorem step_refines {keys : Keys} {v : View} {c : Catalogue} (h : Models keys v c)
    (hfinite : c.Finite) {op : Operation} (hop : op.Admissible) {w : World App} (hw : w.Shows v) :
    ∃ v' c', Gives v.clock c op (op.run keys w).1 c' ∧ Models keys v' c' ∧
      (op.run keys w).2.Shows v' := by
  cases op with
  | create experiment =>
    have hwrites : Operation.Writes (.create experiment) := fun e he => (hop e he).1
    exact write_refines h hwrites hw
  | update experiment =>
    have hwrites : Operation.Writes (.update experiment) := fun e he => (hop e he).1
    exact write_refines h hwrites hw
  | delete id page =>
    have hwrites : Operation.Writes (.delete id page) := trivial
    exact write_refines h hwrites hw
  | get id page =>
    obtain ⟨w', hrun, hshows⟩ := map_runStore (runs_get h (hfinite page id)) hw .found
    rw [Operation.run, hrun]
    exact ⟨v, c, .get id page, h, hshows⟩
  | active page =>
    cases hpage : Text.isBlank page with
    | true =>
      have hruns : Runs (Experiments.active keys page none) v (.error (.blank .page)) v :=
        Runs.bind_error (Runs.require_missing hpage)
      obtain ⟨w', hrun, hshows⟩ := map_runStore hruns hw .listed
      rw [Operation.run, hrun]
      exact ⟨v, c, .activeBlank hpage, h, hshows⟩
    | false =>
      obtain ⟨listed, hruns, hlists⟩ := runs_active h hpage (hfinite page)
      obtain ⟨w', hrun, hshows⟩ := map_runStore hruns hw .listed
      rw [Operation.run, hrun]
      exact ⟨v, c, .active hpage hlists, h, hshows⟩

/-- Calls one after the other end as the catalogue says. -/
theorem runAll_refines {keys : Keys} {v : View} {c : Catalogue} (h : Models keys v c)
    (hfinite : c.Finite) {steps : List (Instant × Operation)}
    (hsteps : ∀ step ∈ steps, step.2.Admissible) {w : World App} (hw : w.Shows v) :
    Follows c steps (Operation.runAll keys steps w).1 := by
  induction steps generalizing v c w with
  | nil => exact .nil c
  | cons step steps ih =>
    obtain ⟨now, op⟩ := step
    rw [List.forall_mem_cons] at hsteps
    have hmodels : Models keys { v with clock := now } c := ⟨h.holds, h.issued⟩
    have hshows : World.Shows { w with clock := now } { v with clock := now } :=
      ⟨⟨hw.hasClient, hw.failure⟩, rfl, hw.issued, hw.store⟩
    obtain ⟨v', c', hgives, hmodels', hshows'⟩ := step_refines hmodels hfinite hsteps.1 hshows
    exact .cons hgives (ih hmodels' (finite_of_gives hgives hfinite hsteps.1) hsteps.2 hshows')

/-- On an empty store that works, whatever calls are made and whatever the clock shows at each of
    them, the repository ends every call exactly as the map from page and id does. -/
theorem repository_refines_catalogue (keys : Keys) {w : World App} (hw : w.Healthy)
    (hempty : w.state.server.store = .empty) {steps : List (Instant × Operation)}
    (hsteps : ∀ step ∈ steps, step.2.Admissible) (outcomes : List Outcome) :
    Follows ⟨w.issued, Entries.empty⟩ steps outcomes ↔
      outcomes = (Operation.runAll keys steps w).1 := by
  have hmodels : Models keys ⟨w.clock, w.issued, .empty⟩ ⟨w.issued, Entries.empty⟩ :=
    ⟨holds_empty keys, rfl⟩
  have hfinite : Catalogue.Finite ⟨w.issued, Entries.empty⟩ := fun _ _ _ he => by cases he
  have hfollows := runAll_refines hmodels hfinite hsteps ⟨hw, rfl, rfl, hempty⟩
  constructor
  · exact fun h => follows_unique h hfollows
  · intro heq
    subst heq
    exact hfollows

/-! ## A run -/

/-- The text of an experiment with the values that documents can hold. -/
def heroText : String :=
  "\x7b\"id\":\"hero\",\"page\":\"landing\",\"variants\":[\x7b\"id\":\"a\"," ++
  "\"trafficPercentage\":100,\"config\":\x7b\"size\":12,\"large\":true\x7d\x7d]\x7d"

/-- That experiment, read at some time. -/
def hero (now : Instant) : Experiment :=
  ⟨"hero", "", "landing", true,
    [⟨"a", "", 100, .ofList [("size", .whole 12), ("large", .flag true)]⟩], .utc now, .utc now⟩

theorem ofText_heroText (now : Instant) :
    Experiment.ofText (.utc now) heroText = .value (hero now) := by
  rfl

/-- Calls about that experiment, each with what the clock shows. -/
def heroSteps : List (Instant × Operation) :=
  [(0, .create (some (hero 7))), (5, .create (some (hero 7))), (6, .get "hero" "landing"),
   (8, .active "landing"), (9, .delete "hero" "landing"), (9, .delete "hero" "landing")]

/-- What the calls end with: it is created, found, listed and deleted once. -/
def heroOutcomes : List Outcome :=
  [.stored (.ok (hero 0)), .stored (.error (.conflict "hero" "landing")),
   .found (.ok (some (hero 0))), .listed (.ok [hero 0]), .removed (.ok true),
   .removed (.ok false)]

theorem admissible_heroSteps : ∀ step ∈ heroSteps, step.2.Admissible := by
  have hcreate : Operation.Admissible (.create (some (hero 7))) := by
    rintro _ ⟨⟩
    exact ⟨⟨.utc 7, heroText, ofText_heroText 7⟩, by decide⟩
  simp only [heroSteps, List.forall_mem_cons]
  exact ⟨hcreate, hcreate, trivial, trivial, trivial, trivial, fun _ h => by cases h⟩

theorem follows_heroSteps : Follows ⟨0, Entries.empty⟩ heroSteps heroOutcomes := by
  have hlists : (Entries.empty.set "landing" "hero" (some (hero 0))).Lists "landing" [hero 0] := by
    refine ⟨List.pairwise_singleton _ _, fun e => ?_⟩
    simp only [List.mem_singleton, Entries.set, Entries.empty, true_and]
    constructor
    · intro heq
      subst heq
      exact ⟨rfl, "hero", rfl⟩
    · intro hparts
      obtain ⟨-, id, hid⟩ := hparts
      split_ifs at hid
      cases hid
      rfl
  exact .cons (.create _) (.cons (.create _) (.cons (.get _ _) (.cons (.active rfl hlists)
    (.cons (.delete _ _) (.cons (.delete _ _) (.nil _))))))

theorem repository_refines_catalogue_hero :
    (App.start Settings.defaults true 0).Healthy ∧ (∀ step ∈ heroSteps, step.2.Admissible) ∧
      heroOutcomes = (Operation.runAll ⟨""⟩ heroSteps (App.start Settings.defaults true 0)).1 := by
  have hhealthy : (App.start Settings.defaults true 0).Healthy := ⟨rfl, rfl⟩
  exact ⟨hhealthy, admissible_heroSteps,
    (repository_refines_catalogue ⟨""⟩ hhealthy rfl admissible_heroSteps _).1 follows_heroSteps⟩

end SplitTest
