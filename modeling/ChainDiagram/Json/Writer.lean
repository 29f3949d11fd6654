import ChainDiagram.Json.Token

/-!
# Writing JSON

A value has two written forms: one without any blanks (`compact`), and one with a line for each item
and member, indented by two spaces per level (`pretty`). Both consist of the same tokens.
-/

set_option autoImplicit false

namespace ChainDiagram.Json

mutual

/-- A value without blanks. -/
def compactChars : Json → List Char
  | .null => Token.null.text
  | .bool value => (Token.bool value).text
  | .number value => value.text
  | .string text => (Token.string (some text)).text
  | .array items => '[' :: compactItems items
  | .object members => '\x7b' :: compactMembers members
  | .unpaired => (Token.string none).text

/-- The items of an array with commas between them, and its closing bracket. -/
def compactItems : List Json → List Char
  | [] => [']']
  | [item] => compactChars item ++ [']']
  | item :: next :: items => compactChars item ++ ',' :: compactItems (next :: items)

/-- The members of an object with commas between them, and its closing bracket. -/
def compactMembers : List (String × Json) → List Char
  | [] => ['\x7d']
  | [(key, value)] => (Token.string (some key)).text ++ ':' :: compactChars value ++ ['\x7d']
  | (key, value) :: next :: members =>
    (Token.string (some key)).text ++ ':' :: compactChars value ++ ',' ::
      compactMembers (next :: members)

end

/-- A new line at a level of indentation. -/
def newLine (level : Nat) : List Char := '\n' :: List.replicate (2 * level) ' '

mutual

/-- A value over several lines. An empty array or object stays on one. -/
def prettyChars (level : Nat) : Json → List Char
  | .array [] => ['[', ']']
  | .array (item :: items) => '[' :: prettyItems level (item :: items)
  | .object [] => ['\x7b', '\x7d']
  | .object (member :: members) => '\x7b' :: prettyMembers level (member :: members)
  | .null => Token.null.text
  | .bool value => (Token.bool value).text
  | .number value => value.text
  | .string text => (Token.string (some text)).text
  | .unpaired => (Token.string none).text

/-- The items of an array, each on a line of its own, and its closing bracket. -/
def prettyItems (level : Nat) : List Json → List Char
  | [] => newLine level ++ [']']
  | [item] => newLine (level + 1) ++ prettyChars (level + 1) item ++ newLine level ++ [']']
  | item :: next :: items =>
    newLine (level + 1) ++ prettyChars (level + 1) item ++ ',' :: prettyItems level (next :: items)

/-- The members of an object, each on a line of its own, and its closing bracket. -/
def prettyMembers (level : Nat) : List (String × Json) → List Char
  | [] => newLine level ++ ['\x7d']
  | [(key, value)] =>
    newLine (level + 1) ++ (Token.string (some key)).text ++ ':' :: ' ' ::
      prettyChars (level + 1) value ++ newLine level ++ ['\x7d']
  | (key, value) :: next :: members =>
    newLine (level + 1) ++ (Token.string (some key)).text ++ ':' :: ' ' ::
      prettyChars (level + 1) value ++ ',' :: prettyMembers level (next :: members)

end

/-- The written form without blanks. -/
def compact (value : Json) : String := String.ofList (compactChars value)

/-- The written form with indentation. -/
def pretty (value : Json) : String := String.ofList (prettyChars 0 value)

end ChainDiagram.Json
