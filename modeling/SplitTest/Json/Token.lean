import SplitTest.Json.Basic
import SplitTest.Number.Numeral

/-
  The tokens of a JSON text.
  The text is read character by character; a `Mode` holds what has been read of the current token.
  Besides the numbers of JSON, `NaN`, `Infinity` and `-Infinity` are numbers. Half of a surrogate
  pair, a control character inside a string, and a number with more than `Numeral.longest` digits
  in front of its point make the text invalid.
-/

namespace SplitTest.Json

/-- A token. -/
inductive Token
  | openArray
  | closeArray
  | openObject
  | closeObject
  | comma
  | colon
  | scalar (s : Scalar)
  deriving DecidableEq, Repr

/-- What the characters read so far are part of. Strings and runs are kept in reverse. -/
inductive Mode
  /-- Between tokens. -/
  | outside
  /-- In a number or a word. -/
  | run (reversed : List Char)
  /-- In a string. -/
  | text (reversed : List Char)
  /-- After a backslash in a string. -/
  | escape (reversed : List Char)
  /-- In the digits of a code unit, with the first half of a pair if there is one. -/
  | unit (reversed : List Char) (high : Option Nat) (missing value : Nat)
  /-- After the first half of a pair: a backslash must follow. -/
  | pair (reversed : List Char) (high : Nat)
  /-- After that backslash: the mark of a code unit must follow. -/
  | pairMark (reversed : List Char) (high : Nat)
  deriving DecidableEq, Repr

/-- The white space between tokens. -/
def isGap (c : Char) : Bool :=
  c == ' ' || c == '\t' || c == '\n' || c == '\r'

/-- The punctuation tokens. -/
def punctuation : Char → Option Token
  | '[' => some .openArray
  | ']' => some .closeArray
  | '\x7b' => some .openObject
  | '\x7d' => some .closeObject
  | ',' => some .comma
  | ':' => some .colon
  | _ => none

/-- The numerals of JSON: no plus sign, no needless zero in front, digits on both sides of a
point, and not too many of them in front of it. -/
def admits (n : Numeral) : Bool :=
  n.sign != some .plus && n.fraction != some [] && n.whole.length ≤ Numeral.longest &&
    match n.whole with
    | [] => false
    | '0' :: rest => rest.isEmpty
    | _ => true

/-- The value of a numeral: a whole number unless a point or an exponent is written. -/
def ofNumeral (n : Numeral) : Scalar :=
  if n.isWhole then .int n.toInt else .float n.toBinary64

/-- The value of a run of characters outside strings. -/
def ofRun (run : List Char) : Option Scalar :=
  if run = ['n', 'u', 'l', 'l'] then some .null
  else if run = ['t', 'r', 'u', 'e'] then some (.bool true)
  else if run = ['f', 'a', 'l', 's', 'e'] then some (.bool false)
  else if run = ['N', 'a', 'N'] then some (.float .nan)
  else if run = ['I', 'n', 'f', 'i', 'n', 'i', 't', 'y'] then some (.float (.infinite false))
  else if run = ['-', 'I', 'n', 'f', 'i', 'n', 'i', 't', 'y'] then some (.float (.infinite true))
  else
    match Numeral.read run with
    | some n => if admits n then some (ofNumeral n) else none
    | none => none

/-- The value of a hexadecimal digit. -/
def hexDigit (c : Char) : Option Nat :=
  let n := c.toNat
  if 48 ≤ n ∧ n ≤ 57 then some (n - 48)
  else if 97 ≤ n ∧ n ≤ 102 then some (n - 87)
  else if 65 ≤ n ∧ n ≤ 70 then some (n - 55)
  else none

/-- What a short escape stands for. -/
def shortEscape : Char → Option Char
  | '"' => some '"'
  | '\\' => some '\\'
  | '/' => some '/'
  | 'b' => some '\x08'
  | 't' => some '\t'
  | 'n' => some '\n'
  | 'f' => some '\x0c'
  | 'r' => some '\r'
  | _ => none

/-- A whole code unit: a character, the first half of a pair, or the second. -/
def closeUnit (reversed : List Char) (high : Option Nat) (value : Nat) : Option Mode :=
  match high with
  | none =>
    if 0xD800 ≤ value ∧ value < 0xDC00 then some (.pair reversed value)
    else if 0xDC00 ≤ value ∧ value < 0xE000 then none
    else some (.text (Char.ofNat value :: reversed))
  | some high =>
    if 0xDC00 ≤ value ∧ value < 0xE000 then
      some (.text (Char.ofNat (0x10000 + (high - 0xD800) * 0x400 + (value - 0xDC00)) :: reversed))
    else none

/-- One character between tokens. -/
def stepOutside (c : Char) : Mode × List Token :=
  if isGap c then (.outside, [])
  else if c = '"' then (.text [], [])
  else
    match punctuation c with
    | some token => (.outside, [token])
    | none => (.run [c], [])

/-- Whether a character ends a run. -/
def endsRun (c : Char) : Bool :=
  isGap c || c == '"' || (punctuation c).isSome

/-- One character: the mode after it and the tokens it completes. -/
def step (mode : Mode) (c : Char) : Option (Mode × List Token) :=
  match mode with
  | .outside => some (stepOutside c)
  | .run reversed =>
    if endsRun c then
      (ofRun reversed.reverse).map fun s =>
        ((stepOutside c).1, .scalar s :: (stepOutside c).2)
    else some (.run (c :: reversed), [])
  | .text reversed =>
    if c = '"' then some (.outside, [.scalar (.text (String.ofList reversed.reverse))])
    else if c = '\\' then some (.escape reversed, [])
    else if c.toNat < 0x20 then none
    else some (.text (c :: reversed), [])
  | .escape reversed =>
    if c = 'u' then some (.unit reversed none 3 0, [])
    else (shortEscape c).map fun e => (.text (e :: reversed), [])
  | .unit reversed high missing value =>
    match hexDigit c with
    | none => none
    | some d =>
      match missing with
      | 0 => (closeUnit reversed high (value * 16 + d)).map fun mode => (mode, [])
      | missing + 1 => some (.unit reversed high missing (value * 16 + d), [])
  | .pair reversed high => if c = '\\' then some (.pairMark reversed high, []) else none
  | .pairMark reversed high =>
    if c = 'u' then some (.unit reversed (some high) 3 0, []) else none

/-- The tokens that the end of the text completes. -/
def finish : Mode → Option (List Token)
  | .outside => some []
  | .run reversed => (ofRun reversed.reverse).map fun s => [.scalar s]
  | _ => none

/-- Reads on from a mode; the tokens found before are given in reverse. -/
def scanFrom (mode : Mode) (found : List Token) : List Char → Option (List Token)
  | [] => (finish mode).map fun last => found.reverse ++ last
  | c :: cs =>
    match step mode c with
    | some (mode, tokens) => scanFrom mode (tokens.reverse ++ found) cs
    | none => none

/-- The tokens of a text. -/
def scan (cs : List Char) : Option (List Token) :=
  scanFrom .outside [] cs

end SplitTest.Json
