import SplitTest.Json.Token

/-
  From tokens to a value.
  The containers that are still open form a stack of frames; every token moves a state on. A
  container may not hold anything when two hundred others are open around it.
-/

namespace SplitTest.Json

/-- A container with a value still to come: the items before it in reverse, or the fields before
it in reverse and the name it has. -/
inductive Frame
  | array (reversed : List Json)
  | object (reversed : Table Json) (name : String)

/-- What may come next, within the open containers. -/
inductive State
  /-- A value. -/
  | value (stack : List Frame)
  /-- The first item of an array, or its end. -/
  | firstItem (stack : List Frame)
  /-- A comma or the end of an array. -/
  | nextItem (reversed : List Json) (stack : List Frame)
  /-- The first name of an object, or its end. -/
  | firstName (stack : List Frame)
  /-- A name. -/
  | name (reversed : Table Json) (stack : List Frame)
  /-- The colon after a name. -/
  | colon (reversed : Table Json) (name : String) (stack : List Frame)
  /-- A comma or the end of an object. -/
  | nextField (reversed : Table Json) (stack : List Frame)
  /-- Nothing: the value is complete. -/
  | complete (value : Json)

/-- How many containers may be open around one that holds something. -/
def deepest : Nat := 200

/-- Hands a complete value to the innermost open container. -/
def deliver (value : Json) : List Frame → State
  | [] => .complete value
  | .array reversed :: stack => .nextItem (value :: reversed) stack
  | .object reversed name :: stack => .nextField ((name, value) :: reversed) stack

/-- The token that starts a value, within the open containers. -/
def begin (stack : List Frame) : Token → Option State
  | .openArray => some (.firstItem stack)
  | .openObject => some (.firstName stack)
  | .scalar s => some (deliver (.scalar s) stack)
  | _ => none

/-- One token. -/
def advance (state : State) (token : Token) : Option State :=
  match state, token with
  | .value stack, t => begin stack t
  | .firstItem stack, .closeArray => some (deliver (.array []) stack)
  | .firstItem stack, t => if stack.length < deepest then begin (.array [] :: stack) t else none
  | .nextItem reversed stack, .comma => some (.value (.array reversed :: stack))
  | .nextItem reversed stack, .closeArray => some (deliver (.array reversed.reverse) stack)
  | .firstName stack, .closeObject => some (deliver (.object []) stack)
  | .firstName stack, .scalar (.text name) =>
    if stack.length < deepest then some (.colon [] name stack) else none
  | .name reversed stack, .scalar (.text name) => some (.colon reversed name stack)
  | .colon reversed name stack, .colon => some (.value (.object reversed name :: stack))
  | .nextField reversed stack, .comma => some (.name reversed stack)
  | .nextField reversed stack, .closeObject => some (deliver (.object reversed.reverse) stack)
  | _, _ => none

/-- All tokens from a state on. -/
def advanceAll (state : State) : List Token → Option State
  | [] => some state
  | t :: ts => (advance state t).bind fun state => advanceAll state ts

/-- The value that tokens spell. -/
def ofTokens? (tokens : List Token) : Option Json :=
  match advanceAll (.value []) tokens with
  | some (.complete value) => some value
  | _ => none

/-- The value that a text spells. -/
def parse (cs : List Char) : Option Json :=
  (scan cs).bind ofTokens?

end SplitTest.Json
