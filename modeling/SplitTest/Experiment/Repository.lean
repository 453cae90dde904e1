import SplitTest.Experiment.Codec
import SplitTest.Store.Command
import SplitTest.Store.Keys
import SplitTest.Text.Blank

/-
  The experiments in the store: one hash per page, one field per experiment.
  Pages and ids that are asked for must not be blank. The store sets the timestamps: both when an
  experiment is created, the second one at every update.
-/

namespace SplitTest.Experiments

open Program

/-- An experiment that must be given. -/
def given (experiment : Option Experiment) : StoreProgram Experiment :=
  match experiment with
  | some e => .done e
  | none => .fail .noExperiment

/-- Reads a document; its faults are an error. The clock is read for each of the two timestamps. -/
def load (text : String) : StoreProgram Experiment := do
  let created ← Program.now
  let updated ← Program.now
  match Experiment.ofTextAt (.utc created) (.utc updated) text with
  | .value e => .done e
  | .faults fs => .fail (.invalidDocument fs)

/-- Reads all documents, in order; the first with faults is an error. -/
def loadAll : List String → StoreProgram (List Experiment)
  | [] => .done []
  | text :: rest => do
    let e ← load text
    let es ← loadAll rest
    .done (e :: es)

/-- The order of a listing: by the moment of creation, then by id. -/
def listedBefore (a b : Experiment) : Bool :=
  a.createdAt.instant < b.createdAt.instant ||
    (a.createdAt.instant == b.createdAt.instant && decide (a.id ≤ b.id))

/-- Whether an experiment belongs into the listing of a page. -/
def runsOn (page : String) (e : Experiment) : Bool :=
  e.isActive && e.page == page

/-- The running experiments of a page, in the order of their creation. -/
def listing (page : String) (all : List Experiment) : List Experiment :=
  (all.filter (runsOn page)).mergeSort listedBefore

/-- The texts of a hash that hold something. -/
def documents (fields : Table String) : List String :=
  (fields.map Prod.snd).filter (· != "")

/-- Lists the running experiments of a page, reading within the deadline if there is one. Every
document of the page must be sound, also those of experiments that are not listed. -/
def active (keys : Keys) (page : String) (deadline : Option Binary64) :
    StoreProgram (List Experiment) := do
  require .page (Text.isBlank page)
  let fields ← Program.ask (.readHash (keys.page page) deadline) fun result =>
    match result with
    | .ok fields => .done fields
    | .error .late => .fail Outage.late.toError
    | .error outage =>
      .log (.error s!"Failed to read experiments for page '{page}': {outage.toError.message}")
        (.fail outage.toError)
  let all ← loadAll (documents fields)
  let listed := listing page all
  report (.info s!"Retrieved {listed.length} active experiments for page '{page}'")
  pure listed

/-- Looks an experiment up. -/
def get (keys : Keys) (id page : String) : StoreProgram (Option Experiment) := do
  require .experimentId (Text.isBlank id)
  require .page (Text.isBlank page)
  let found ← StoreProgram.send (.readField (keys.page page) id)
  match found.filter (· != "") with
  | none => do
    report (.warning s!"Experiment not found: '{id}' on page '{page}'")
    pure none
  | some text => do
    let e ← load text
    pure (some e)

/-- The id to store an experiment under: its own, or a new one when it has none. -/
def idFor (e : Experiment) : StoreProgram String :=
  if e.id = "" then newId else pure e.id

/-- Stores a new experiment, created and updated now. -/
def create (keys : Keys) (experiment : Option Experiment) : StoreProgram Experiment := do
  let e ← given experiment
  require .page (Text.isBlank e.page)
  let now ← Program.now
  let id ← idFor e
  let stored := { e with id := id, createdAt := .utc now, updatedAt := .utc now }
  let added ← StoreProgram.send (.addField (keys.page stored.page) stored.id stored.render)
  if added then do
    report (.info s!"Created experiment '{stored.id}' on page '{stored.page}'")
    pure stored
  else do
    report (.error s!"Experiment '{stored.id}' already exists on page '{stored.page}'")
    .fail (.conflict stored.id stored.page)

/-- Replaces an experiment that is there, updated now. -/
def update (keys : Keys) (experiment : Option Experiment) : StoreProgram Experiment := do
  let e ← given experiment
  require .experimentId (Text.isBlank e.id)
  require .page (Text.isBlank e.page)
  let there ← StoreProgram.send (.hasField (keys.page e.page) e.id)
  if there then do
    let now ← Program.now
    let stored := { e with updatedAt := .utc now }
    let _ ← StoreProgram.send (.writeField (keys.page e.page) stored.id stored.render)
    report (.info s!"Updated experiment '{stored.id}' on page '{stored.page}'")
    pure stored
  else do
    report (.error s!"Cannot update missing experiment '{e.id}' on page '{e.page}'")
    .fail (.notFound e.id e.page)

/-- Removes an experiment; the answer is whether it was there. -/
def delete (keys : Keys) (id page : String) : StoreProgram Bool := do
  require .experimentId (Text.isBlank id)
  require .page (Text.isBlank page)
  let removed ← StoreProgram.send (.removeField (keys.page page) id)
  report (.info s!"Deleted experiment '{id}' on page '{page}': {truthWord removed}")
  pure removed

end SplitTest.Experiments
