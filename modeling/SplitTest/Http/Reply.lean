import SplitTest.Schema.Document

/-
  Replies: a status, headers under lower-case names, and a body.
-/

namespace SplitTest.Http

/-- The answer to a request. -/
structure Reply where
  status : Nat
  headers : Table String
  body : String
  deriving DecidableEq, Repr

namespace Reply

/-- A JSON text with a status. -/
def json (status : Nat) (body : String) : Reply :=
  ⟨status, [("content-type", "application/json")], body⟩

/-- A JSON object that explains an error. -/
def detail (status : Nat) (message : String) : Reply :=
  json status (Json.object [("detail", .ofText message)]).compact

def withHeader (r : Reply) (name value : String) : Reply :=
  { r with headers := r.headers.put name value }

def notFound : Reply := detail 404 "Not Found"

def methodNotAllowed : Reply := (detail 405 "Method Not Allowed").withHeader "allow" "GET"

/-- The one answer to everything that failed on the side of the service. -/
def failed : Reply := detail 500 "An error occurred while processing your request"

/-- A redirection that keeps the method. -/
def redirect (location : String) : Reply := ⟨307, [("location", location)], ""⟩

/-- The answer when handling a request was broken off. -/
def brokenOff : Reply :=
  ⟨500, [("content-type", "text/plain; charset=utf-8")], "Internal Server Error"⟩

end Reply

end SplitTest.Http
