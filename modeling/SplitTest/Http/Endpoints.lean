import SplitTest.Assignment.Service
import SplitTest.Http.Reply
import SplitTest.Stats.Basic
import SplitTest.Stats.Codec

/-
  What the endpoints answer.
  A missing page, or an argument that was refused, is the caller's fault and is explained; all
  else that goes wrong is answered alike and only reported.
-/

namespace SplitTest.Http

open Program

variable {Q : Type} {A : Q → Type}

/-- The answer to an error of the assigner, with its report. -/
def explain (page : String) (e : Error) : Program Q A Reply :=
  match e with
  | .invalidDocument _ => do
    report (.error s!"Invalid experiment document on page '{page}': {e.message}")
    pure .failed
  | _ =>
    if e.refusesArgument then do
      report (.warning s!"Invalid experiments request: {e.message}")
      pure (.detail 400 e.message)
    else do
      report (.error s!"Failed to assign experiments for page '{page}': {e.message}")
      pure .failed

/-- The assignments on a page. -/
def experiments (a : Assigner Q A) (page userId : Option String) : Program Q A Reply :=
  match page.filter fun p => !Text.isBlank p with
  | none => do
    report (.warning "Missing required 'page' parameter")
    pure (.detail 400 "Missing required parameter: 'page'")
  | some p => do
    let result ← (a.respond (some ⟨some p, userId⟩) none).attempt
    match result with
    | .ok r => do
      report (.info s!"Assigned {r.experiments.length} experiments for session {r.sessionId}")
      pure (.json 200 r.render)
    | .error e => explain p e

/-- Statistics as they are published; they may be cached on the way. -/
def statsReply (s : PlatformStats) : Reply :=
  (Reply.json 200 s.renderPublic).withHeader "cache-control" "public, max-age=3600"

/-- The version of the service. -/
def version : String := "1.0.0"

/-- The sign of life. -/
def health : Reply :=
  .json 200 (Json.object
    [("status", .ofText "ok"), ("message", .ofText "Author pages service is running!"),
     ("version", .ofText version)]).compact

end SplitTest.Http
