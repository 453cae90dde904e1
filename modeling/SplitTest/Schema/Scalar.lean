import SplitTest.Schema.Reading
import SplitTest.Number.Spelling
import SplitTest.Time.Reader

/-
  Reading single values.
  Numbers, truth values and timestamps are also read from text and from one another where nothing
  is lost; a text is only ever read from a text.
-/

namespace SplitTest.Reading

-- The powers here are those of whole numbers, whichever library stands behind `^`.
attribute [local instance (high)] instPowNat

/-- A text. -/
def text : Json → Reading String
  | .scalar (.text s) => .value s
  | _ => fail .stringType

/-- A text or nothing. -/
def optionalText : Json → Reading (Option String)
  | .scalar .null => .value none
  | .scalar (.text s) => .value (some s)
  | _ => fail .stringType

/-- Whether a whole number fits into 64 bits. Others stay numbers, but are neither truth values nor
moments. -/
def fits64 (n : Int) : Bool :=
  -(2 ^ (63 : Nat)) ≤ n && n < 2 ^ (63 : Nat)

/-- The whole number that a double stands for, if it has no fraction and lies within the ends of
the 64-bit numbers. The ends themselves are left out: the upper one stands for a number that is too
great. -/
def intOfBinary64 (x : Binary64) : Except FaultKind Int :=
  if x.isFinite then
    match x.toInt? with
    | some n => if -(2 ^ (63 : Nat)) < n ∧ n < 2 ^ (63 : Nat) then .ok n else .error .intParsingSize
    | none => .error .intFromFloat
  else .error .finiteNumber

/-! ## Truth values -/

/-- The words for a truth value, in any case. -/
def truthOf (s : String) : Option Bool :=
  let word := String.ofList (s.toList.map Char.toLower)
  if ["1", "t", "y", "yes", "true", "on"].contains word then some true
  else if ["0", "f", "n", "no", "false", "off"].contains word then some false
  else none

/-- The truth value of a number: only zero and one have one. -/
def truthOfInt (n : Int) : Option Bool :=
  if n = 0 then some false else if n = 1 then some true else none

/-- A value of the right kind that may have no truth value. -/
def ofTruth : Option Bool → Reading Bool
  | some b => .value b
  | none => fail .boolParsing

/-- A truth value. -/
def truth : Json → Reading Bool
  | .scalar (.bool b) => .value b
  | .scalar (.int n) => if fits64 n then ofTruth (truthOfInt n) else fail .boolType
  | .scalar (.float x) =>
    match intOfBinary64 x with
    | .ok n => ofTruth (truthOfInt n)
    | .error _ => fail .boolType
  | .scalar (.text s) => ofTruth (truthOf s)
  | _ => fail .boolType

/-! ## Whole numbers -/

/-- How a fault of the text of a whole number is reported. -/
def ofWhole : Except Spelling.WholeFault Int → Reading Int
  | .ok n => .value n
  | .error .malformed => fail .intParsing
  | .error .tooLong => fail .intParsingSize

/-- A whole number. -/
def int : Json → Reading Int
  | .scalar (.int n) => .value n
  | .scalar (.bool b) => .value (if b then 1 else 0)
  | .scalar (.float x) =>
    match intOfBinary64 x with
    | .ok n => .value n
    | .error kind => fail kind
  | .scalar (.text s) => ofWhole (Spelling.whole s)
  | _ => fail .intType

/-- A whole number from a least one on. -/
def intFrom (least : Int) (j : Json) : Reading Int :=
  (int j).andThen fun n => if n < least then fail .greaterThanEqual else .value n

/-! ## Doubles -/

/-- A double. -/
def binary64 : Json → Reading Binary64
  | .scalar (.float x) => .value x
  | .scalar (.int n) => .value (.ofInt n)
  | .scalar (.bool b) => .value (.ofInt (if b then 1 else 0))
  | .scalar (.text s) =>
    match Spelling.binary64? s with
    | some x => .value x
    | none => fail .floatParsing
  | _ => fail .floatType

/-- A double that is not below zero. -/
def nonNegative (j : Json) : Reading Binary64 :=
  (binary64 j).andThen fun x => if Binary64.zero.le x then .value x else fail .greaterThanEqual

/-- A double from zero to a greatest one; the upper bound is looked at first. -/
def upTo (greatest : Binary64) (j : Json) : Reading Binary64 :=
  (binary64 j).andThen fun x =>
    if x.le greatest then
      if Binary64.zero.le x then .value x else fail .greaterThanEqual
    else fail .lessThanEqual

/-- A double or nothing. -/
def optionalBinary64 : Json → Reading (Option Binary64)
  | .scalar .null => .value none
  | j => (binary64 j).map some

/-! ## Timestamps -/

/-- How a fault of a timestamp is reported. -/
def ofTimestamp : Except Timestamp.ReadFault Timestamp → Reading Timestamp
  | .ok t => .value t
  | .error .malformed => fail .datetimeFromDateParsing
  | .error .outOfRange => fail .datetimeParsing

/-- A timestamp. -/
def timestamp : Json → Reading Timestamp
  | .scalar (.text s) => ofTimestamp (Timestamp.read s.toList)
  | .scalar (.int n) => if fits64 n then ofTimestamp (Timestamp.ofInt n) else fail .datetimeType
  | .scalar (.float x) => ofTimestamp (Timestamp.ofBinary64 x)
  | _ => fail .datetimeType

end SplitTest.Reading
