import SplitTest.Json.Basic
import SplitTest.Number.Notation

/-
  Writing JSON without white space.
  Strings keep every character but the quote, the backslash and the control characters below
  U+0020. Whole numbers are written exactly, doubles with their shortest digits; NaN and the
  infinities, which JSON has no numbers for, are written `null`.
-/

namespace SplitTest.Json

/-- A hexadecimal digit in lower case. -/
def hexChar (n : Nat) : Char :=
  Char.ofNat (if n < 10 then 48 + n else 87 + n)

/-- One character of a string. -/
def escapeChar (c : Char) : List Char :=
  match c with
  | '"' => ['\\', '"']
  | '\\' => ['\\', '\\']
  | '\x08' => ['\\', 'b']
  | '\t' => ['\\', 't']
  | '\n' => ['\\', 'n']
  | '\x0c' => ['\\', 'f']
  | '\r' => ['\\', 'r']
  | c =>
    if c.toNat < 0x20 then ['\\', 'u', '0', '0', hexChar (c.toNat / 16), hexChar (c.toNat % 16)]
    else [c]

/-- A string with its quotes. -/
def renderText (s : String) : List Char :=
  '"' :: (s.toList.flatMap escapeChar ++ ['"'])

/-- A whole number. -/
def renderInt (n : Int) : List Char :=
  if n < 0 then '-' :: Nat.toDigits 10 n.natAbs else Nat.toDigits 10 n.natAbs

/-- The text for what has no text of its own. -/
def nullText : List Char := ['n', 'u', 'l', 'l']

def renderScalar : Scalar → List Char
  | .null => nullText
  | .bool true => ['t', 'r', 'u', 'e']
  | .bool false => ['f', 'a', 'l', 's', 'e']
  | .int n => renderInt n
  | .float x => x.render?.getD nullText
  | .text s => renderText s

mutual

/-- The text of a value. -/
def render : Json → List Char
  | .scalar s => renderScalar s
  | .array items => '[' :: renderItems items
  | .object fields => '\x7b' :: renderFields fields

/-- The items of an array and its end. -/
def renderItems : List Json → List Char
  | [] => [']']
  | item :: rest => render item ++ renderMoreItems rest

/-- The items after the first, each with its comma, and the end of the array. -/
def renderMoreItems : List Json → List Char
  | [] => [']']
  | item :: rest => ',' :: (render item ++ renderMoreItems rest)

/-- The fields of an object and its end. -/
def renderFields : List (String × Json) → List Char
  | [] => ['\x7d']
  | (name, value) :: rest => renderText name ++ ':' :: (render value ++ renderMoreFields rest)

/-- The fields after the first, each with its comma, and the end of the object. -/
def renderMoreFields : List (String × Json) → List Char
  | [] => ['\x7d']
  | (name, value) :: rest =>
    ',' :: (renderText name ++ ':' :: (render value ++ renderMoreFields rest))

end

/-- The text of a value as a string. -/
def compact (value : Json) : String :=
  String.ofList (render value)

end SplitTest.Json
