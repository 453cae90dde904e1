import SplitTest.Text.Utf8

/-
  Routes: which endpoint a path leads to.
  A path that is known but for slashes at its end is redirected to the known form, whatever the
  method. One line feed at the end of a path is overlooked.
-/

namespace SplitTest.Http

/-- The things that can be asked for. -/
inductive Endpoint
  | health
  | experiments
  | stats
  deriving DecidableEq, Repr

/-- The path of an endpoint. -/
def Endpoint.path : Endpoint → String
  | .health => "/"
  | .experiments => "/api/v1/experiments"
  | .stats => "/api/v1/stats/platform"

/-- The endpoint of a path. -/
def Endpoint.ofPath? (path : String) : Option Endpoint :=
  [Endpoint.health, .experiments, .stats].find? fun e =>
    path == e.path || path == e.path ++ "\n"

/-- What a method and a path lead to. -/
inductive Resolution
  | endpoint (e : Endpoint)
  | methodNotAllowed
  | redirect (path : String)
  | notFound
  deriving DecidableEq, Repr

/-- A path without the slashes at its end, or with one more if it has none. -/
def toggleSlash (path : String) : String :=
  let reversed := path.toList.reverse
  match reversed with
  | '/' :: _ => String.ofList (reversed.dropWhile (· == '/')).reverse
  | _ => path ++ "/"

/-- Only `GET` is answered. -/
def resolve (method path : String) : Resolution :=
  match Endpoint.ofPath? path with
  | some e => if method = "GET" then .endpoint e else .methodNotAllowed
  | none =>
    let other := toggleSlash path
    if (Endpoint.ofPath? other).isSome then .redirect other else .notFound

/-- The host that requests come in for. -/
def origin : String := "http://testserver"

/-- The characters that a location keeps. -/
def staysInLocation (c : Char) : Bool :=
  c.isAlphanum || "_.-~:/%#?=@[]!$&'()*+,;".toList.contains c

/-- The two hexadecimal digits of a byte, in upper case. -/
def escapeByte (b : UInt8) : List Char :=
  let digit (n : Nat) : Char := Char.ofNat (if n < 10 then 48 + n else 55 + n)
  ['%', digit (b.toNat / 16), digit (b.toNat % 16)]

/-- The text of a location; characters that it cannot keep are escaped byte by byte. -/
def escapeLocation (s : String) : String :=
  String.ofList (s.toList.flatMap fun c =>
    if staysInLocation c then [c] else (String.utf8EncodeChar c).flatMap escapeByte)

/-- The location of a path, with the query if there is one. -/
def location (path query : String) : String :=
  escapeLocation (origin ++ path ++ if query = "" then "" else "?" ++ query)

end SplitTest.Http
