import ChainDiagram.Json.Token

/-!
# Reading JSON

A value is read from its tokens in one pass. The state of the reader is the stack of arrays and
objects that are still open, each with what it holds so far, and what may come next; a token either
changes the state or ends the reading. There is no limit to the depth.

## What is here

* `Frame`, `Expect`, `Reading`: an open bracket, what may come next, and the whole state.
* `Reading.step`: what one token does.
* `ofTokens?`, `ofText?`: the value that a sequence of tokens, or a text, denotes.
-/

set_option autoImplicit false

namespace ChainDiagram.Json

/-- An array or object whose closing bracket is still to come. What it holds so far stands with the
last item first. A key without text is one that denotes none. -/
inductive Frame where
  | array (items : List Json)
  | object (members : List (Option String × Json)) (key : Option String)
  deriving Repr

/-- What may come next. -/
inductive Expect where
  /-- A value. -/
  | value
  /-- A value, or the end of an empty array. -/
  | item
  /-- A key, or the end of an empty object. -/
  | member
  /-- A key. -/
  | key
  /-- The colon behind a key. -/
  | colon
  /-- A comma or the closing bracket of what is open. -/
  | separator
  deriving DecidableEq, Repr

/-- The state of the reader. When nothing is open any more, the value is complete. -/
inductive Reading where
  | pending (frames : List Frame) (expect : Expect)
  | complete (value : Json)
  deriving Repr

namespace Reading

/-- The state before the first token. -/
def start : Reading := pending [] .value

/-- A value has been read inside of the open brackets. -/
def push (value : Json) : List Frame → Reading
  | [] => complete value
  | .array items :: frames => pending (.array (value :: items) :: frames) .separator
  | .object members key :: frames =>
    pending (.object ((key, value) :: members) key :: frames) .separator

/-- The object with the given members, which stand with the last one first. -/
def closeObject (members : List (Option String × Json)) : Json :=
  match members.reverse.mapM fun (key, value) => key.map (·, value) with
  | some members => .object members
  | none => .unpaired

/-- A string that stands where a value may stand. -/
def ofString : Option String → Json
  | some text => .string text
  | none => .unpaired

/-- Reads a token where a value may stand. -/
def stepValue (frames : List Frame) : Token → Option Reading
  | .null => some (push .null frames)
  | .bool value => some (push (.bool value) frames)
  | .number value => some (push (.number value) frames)
  | .string text => some (push (ofString text) frames)
  | .openArray => some (pending (.array [] :: frames) .item)
  | .openObject => some (pending (.object [] none :: frames) .member)
  | _ => none

/-- Reads a token where a key may stand. -/
def stepKey : List Frame → Token → Option Reading
  | .object members _ :: frames, .string text =>
    some (pending (.object members text :: frames) .colon)
  | _, _ => none

/-- Reads one token. -/
def step : Reading → Token → Option Reading
  | complete _, _ => none
  | pending frames .value, token => stepValue frames token
  | pending (.array items :: frames) .item, .closeArray => some (push (.array items.reverse) frames)
  | pending frames .item, token => stepValue frames token
  | pending (.object members _ :: frames) .member, .closeObject =>
    some (push (closeObject members) frames)
  | pending frames .member, token => stepKey frames token
  | pending frames .key, token => stepKey frames token
  | pending frames .colon, .colon => some (pending frames .value)
  | pending (.array items :: frames) .separator, .comma =>
    some (pending (.array items :: frames) .value)
  | pending (.array items :: frames) .separator, .closeArray =>
    some (push (.array items.reverse) frames)
  | pending (.object members key :: frames) .separator, .comma =>
    some (pending (.object members key :: frames) .key)
  | pending (.object members _ :: frames) .separator, .closeObject =>
    some (push (closeObject members) frames)
  | _, _ => none

/-- The value that has been read, if it is complete. -/
def value? : Reading → Option Json
  | complete value => some value
  | pending _ _ => none

end Reading

/-- The value that a sequence of tokens denotes. -/
def ofTokens? (tokens : List Token) : Option Json :=
  (tokens.foldlM Reading.step Reading.start).bind Reading.value?

/-- The value that a text denotes. -/
def ofText? (text : String) : Option Json :=
  (tokenize text.toList).bind ofTokens?

end ChainDiagram.Json
