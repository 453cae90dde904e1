import SplitTest.Json.Token
import SplitTest.Text.Utf8

/-
  Query strings.
  The bytes of a query are taken as one character each. Pieces between ampersands are names with
  values; a plus sign is a space, and escapes spell the bytes of UTF-8 text. An escape that is not
  followed by two hexadecimal digits stands for itself.
-/

namespace SplitTest.Http

/-- The characters of a query as it arrives: one for each byte. -/
def received (query : String) : List Char :=
  (Text.utf8 query).map fun b => Char.ofNat b.toNat

/-- Resolves escapes. Consecutive ASCII characters form one run of bytes, kept in reverse; a
character beyond ASCII ends the run and stays as it is. -/
def unescape (run : List UInt8) : List Char → List Char
  | [] => Text.decodeLossy run.reverse
  | '%' :: a :: b :: rest =>
    match Json.hexDigit a, Json.hexDigit b with
    | some x, some y => unescape (UInt8.ofNat (16 * x + y) :: run) rest
    | _, _ => unescape (UInt8.ofNat '%'.toNat :: run) (a :: b :: rest)
  | c :: rest =>
    if c.toNat < 128 then unescape (UInt8.ofNat c.toNat :: run) rest
    else Text.decodeLossy run.reverse ++ c :: unescape [] rest

/-- The text of a name or a value. -/
def decode (cs : List Char) : String :=
  String.ofList (unescape [] (cs.map fun c => if c = '+' then ' ' else c))

/-- Splits a list at every occurrence of a character. -/
def splitAll (c : Char) : List Char → List (List Char)
  | [] => [[]]
  | x :: xs =>
    if x = c then [] :: splitAll c xs
    else
      match splitAll c xs with
      | [] => [[x]]
      | first :: more => (x :: first) :: more

/-- A piece of a query: what stands before and after its first equals sign. -/
def parameter (piece : List Char) : String × String :=
  (decode (piece.takeWhile (· != '=')), decode ((piece.dropWhile (· != '=')).drop 1))

/-- The parameters of a query, in order; empty pieces are none. -/
def parameters (query : String) : List (String × String) :=
  ((splitAll '&' (received query)).filter (· != [])).map parameter

/-- The value of a parameter: the last one where a name is repeated. -/
def value? (name : String) (params : List (String × String)) : Option String :=
  (params.reverse.find? fun p => p.1 == name).map Prod.snd

end SplitTest.Http
