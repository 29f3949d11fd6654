import ChainDiagram.Toml.Scalar

/-!
# Strings, keys and blanks in TOML

Strings stand between single or double quotes, and between three of them if they may have several
lines. Only double quotes allow escapes.
-/

set_option autoImplicit false

namespace ChainDiagram.Toml

/-! ## Blanks -/

/-- Whether a character may stand between the parts of a line. -/
def isGap (c : Char) : Bool := c = ' ' || c = '\t'

/-- A text without the blanks at its start. -/
def skipGap (text : List Char) : List Char := text.dropWhile isGap

/-- Whether a character may stand in a comment, or in a string for itself: a tab, or no control
character. -/
def isPlain (c : Char) : Bool := c = '\t' || (32 ≤ c.toNat && c.toNat ≠ 127)

/-- What follows a line end, if the text starts with one. -/
def newline? : List Char → Option (List Char)
  | '\n' :: rest => some rest
  | '\r' :: '\n' :: rest => some rest
  | _ => none

/-- A text without the comment at its start. -/
def skipComment : List Char → List Char
  | '#' :: rest => rest.dropWhile isPlain
  | text => text

/-- Reads the rest of a line that may hold only blanks and a comment. -/
def endLine? (text : List Char) : Option (List Char) :=
  match skipComment (skipGap text) with
  | [] => some []
  | rest => newline? rest

/-- A text without the blanks, comments and line ends at its start. -/
def skipLines (text : List Char) : List Char :=
  let rest := skipComment (skipGap text)
  match newline? rest with
  | some next => if next.length < text.length then skipLines next else next
  | none => rest
termination_by text.length

/-! ## Strings -/

/-- The character with a code point in hexadecimal digits. -/
def charOfHex? (digits : List Char) : Option Char :=
  let n := ofDigitsIn 16 digits
  if digits.all isHexDigit ∧ n.isValidChar then some (Char.ofNat n) else none

/-- Reads an escape from behind its backslash. -/
def scanEscape : List Char → Option (Char × List Char)
  | 'b' :: rest => some ('\x08', rest)
  | 't' :: rest => some ('\t', rest)
  | 'n' :: rest => some ('\n', rest)
  | 'f' :: rest => some ('\x0c', rest)
  | 'r' :: rest => some ('\r', rest)
  | '"' :: rest => some ('"', rest)
  | '\\' :: rest => some ('\\', rest)
  | 'u' :: rest =>
    if (rest.take 4).length = 4 then (charOfHex? (rest.take 4)).map (·, rest.drop 4) else none
  | 'U' :: rest =>
    if (rest.take 8).length = 8 then (charOfHex? (rest.take 8)).map (·, rest.drop 8) else none
  | _ => none

/-- A text without the blanks and line ends at its start. -/
def skipFolded (text : List Char) : List Char :=
  let rest := skipGap text
  match newline? rest with
  | some next => if next.length < text.length then skipFolded next else next
  | none => rest
termination_by text.length

/-- How a string is delimited. -/
structure Quoting where
  quote : Char
  /-- Whether a backslash starts an escape. -/
  escapes : Bool
  /-- Whether there are three quotes on either side, and line ends between them. -/
  multiline : Bool
  deriving DecidableEq, Repr

/-- Reads what follows the three quotes that may end a string of several lines: up to two quotes in
front of the last three belong to the string. -/
def closeMultiline (quote : Char) (text : List Char) : List Char × List Char :=
  let extra := (text.takeWhile (· = quote)).length - 3
  (List.replicate (min extra 2) quote, text.drop (min extra 2 + 3))

/-- Reads a string from behind its opening quotes, given the part that has been read, last
character first. -/
def scanStringBody (q : Quoting) (read : List Char) (text : List Char) :
    Option (String × List Char) :=
  match text with
  | [] => none
  | c :: rest =>
    if c = q.quote then
      if !q.multiline then some (String.ofList read.reverse, rest)
      else if (text.take 3).all (· = q.quote) ∧ 3 ≤ text.length then
        let (quotes, rest) := closeMultiline q.quote text
        some (String.ofList (read.reverse ++ quotes), rest)
      else scanStringBody q (c :: read) rest
    else if c = '\\' ∧ q.escapes then
      match scanEscape rest with
      | some (escaped, next) =>
        if next.length ≤ rest.length then scanStringBody q (escaped :: read) next else none
      | none =>
        match newline? (skipGap rest) with
        | some next =>
          if q.multiline ∧ (skipFolded next).length ≤ rest.length then
            scanStringBody q read (skipFolded next)
          else none
        | none => none
    else if isPlain c then scanStringBody q (c :: read) rest
    else
      match newline? text with
      | some next =>
        if q.multiline ∧ next.length ≤ rest.length then scanStringBody q ('\n' :: read) next
        else none
      | none => none
termination_by text.length
decreasing_by all_goals simp only [List.length_cons]; omega

/-- Reads a string on one line. -/
def scanLineString : List Char → Option (String × List Char)
  | '"' :: rest => scanStringBody ⟨'"', true, false⟩ [] rest
  | '\x27' :: rest => scanStringBody ⟨'\x27', false, false⟩ [] rest
  | _ => none

/-- Reads a string. A line end directly behind three opening quotes does not count. -/
def scanString (text : List Char) : Option (String × List Char) :=
  match text with
  | '"' :: '"' :: '"' :: rest => scanStringBody ⟨'"', true, true⟩ [] ((newline? rest).getD rest)
  | '\x27' :: '\x27' :: '\x27' :: rest =>
    scanStringBody ⟨'\x27', false, true⟩ [] ((newline? rest).getD rest)
  | _ => scanLineString text

/-! ## Keys -/

/-- Whether a character may stand in a key without quotes. -/
def isBareChar (c : Char) : Bool := c.isAlphanum || c = '_' || c = '-'

/-- Reads one part of a key. -/
def scanKeyPart (text : List Char) : Option (String × List Char) :=
  match text with
  | '"' :: _ | '\x27' :: _ => scanLineString text
  | _ =>
    let part := text.takeWhile isBareChar
    if part.isEmpty then none else some (String.ofList part, text.dropWhile isBareChar)

/-- Reads the parts of a key, with dots between them and blanks around the dots. There is at least
one part. -/
def scanKeyParts (text : List Char) : Option (List String × List Char) := do
  let (part, rest) ← scanKeyPart text
  match skipGap rest with
  | '.' :: next =>
    if (skipGap next).length < text.length then
      let (parts, rest) ← scanKeyParts (skipGap next)
      return (part :: parts, rest)
    else none
  | _ => return ([part], rest)
termination_by text.length

/-- Reads a key, which may not have too many parts. -/
def scanKey (text : List Char) : Option (List String × List Char) :=
  (scanKeyParts text).filter fun (parts, _) => parts.length ≤ maxDepth

end ChainDiagram.Toml
