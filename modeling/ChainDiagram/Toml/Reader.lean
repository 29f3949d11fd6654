import ChainDiagram.Toml.Table
import ChainDiagram.Toml.Text

/-!
# Reading TOML

A document is a sequence of headers and of keys with values, each on lines of its own. Values may
nest, but only to a limited depth, and the readers of values descend along that depth.

## What is here

* `scanValue`: the value at the start of a text.
* `scanItem`, `items?`: headers, entries and whole documents.
* `ofText?`: the top-level entries that a document denotes.
-/

set_option autoImplicit false

namespace ChainDiagram.Toml

/-! ## Values -/

/-- A way to read a value from the start of a text. -/
abbrev Scanner (α : Type) : Type := List Char → Option (α × List Char)

/-- Reads the values of an array from behind its opening bracket. Values are separated by commas,
the last may have one too, and lines may end anywhere between them. -/
def scanItems (value : Scanner Value) (text : List Char) : Option (List Value × List Char) :=
  match skipLines text with
  | ']' :: rest => some ([], rest)
  | start =>
    match value start with
    | none => none
    | some (item, rest) =>
      match skipLines rest with
      | ']' :: rest => some ([item], rest)
      | ',' :: rest =>
        if rest.length < text.length then
          (scanItems value rest).map fun (items, rest) => (item :: items, rest)
        else none
      | _ => none
termination_by text.length

/-- Reads a key, an equals sign and a value. -/
def scanEntry (value : Scanner Value) (text : List Char) :
    Option ((List String × Value) × List Char) := do
  let (key, rest) ← scanKey text
  match skipGap rest with
  | '=' :: rest =>
    let (value, rest) ← value (skipGap rest)
    return ((key, value), rest)
  | _ => none

/-- Reads the entries of an inline table from behind its opening brace, where there is at least one.
They are separated by commas and stand on one line. -/
def scanEntries (value : Scanner Value) (text : List Char) :
    Option (List (List String × Value) × List Char) :=
  match scanEntry value (skipGap text) with
  | none => none
  | some (entry, rest) =>
    match skipGap rest with
    | '\x7d' :: rest => some ([entry], rest)
    | ',' :: rest =>
      if rest.length < text.length then
        (scanEntries value rest).map fun (entries, rest) => (entry :: entries, rest)
      else none
    | _ => none
termination_by text.length

/-- Reads an inline table from behind its opening brace. -/
def scanInlineTable (value : Scanner Value) (text : List Char) : Option (Value × List Char) :=
  match skipGap text with
  | '\x7d' :: rest => some (.table .inline [], rest)
  | start => do
    let (entries, rest) ← scanEntries value start
    let table ← entries.foldlM (fun table (key, value) => insert value key table) []
    return (.table .inline table, rest)

/-- Reads a value in which arrays and inline tables nest to a limited depth. -/
def scanValue (depth : Nat) (text : List Char) : Option (Value × List Char) :=
  match text with
  | '"' :: _ | '\x27' :: _ => (scanString text).map fun (string, rest) => (.string string, rest)
  | '[' :: rest =>
    match depth with
    | 0 => none
    | depth + 1 => (scanItems (scanValue depth) rest).map fun (items, rest) => (.array items, rest)
  | '\x7b' :: rest =>
    match depth with
    | 0 => none
    | depth + 1 => scanInlineTable (scanValue depth) rest
  | _ => scanScalar text
termination_by structural depth

/-! ## Documents -/

/-- A path without its last name, and that name. -/
def splitLast? : List String → Option (List String × String)
  | [] => none
  | path => path.getLast?.map (path.dropLast, ·)

/-- Reads a header or an entry, up to its last character. -/
def scanItem (text : List Char) : Option (Item × List Char) :=
  match text with
  | '[' :: '[' :: rest => do
    let (key, rest) ← scanKey (skipGap rest)
    let (path, name) ← splitLast? key
    match skipGap rest with
    | ']' :: ']' :: rest => return (.arrayHeader path name, rest)
    | _ => none
  | '[' :: rest => do
    let (key, rest) ← scanKey (skipGap rest)
    let (path, name) ← splitLast? key
    match skipGap rest with
    | ']' :: rest => return (.header path name, rest)
    | _ => none
  | _ =>
    (scanEntry (scanValue maxDepth) text).map fun ((key, value), rest) => (.entry key value, rest)

/-- The items of a document. -/
def items? (text : List Char) : Option (List Item) :=
  match skipLines text with
  | [] => some []
  | start => do
    let (item, rest) ← scanItem start
    let next ← endLine? rest
    if next.length < text.length then return item :: (← items? next) else none
termination_by text.length

/-- The entries of the table that a document denotes. A byte order mark in front of it is passed
over. -/
def ofText? (text : String) : Option Entries :=
  let chars :=
    match text.toList with
    | '\uFEFF' :: rest => rest
    | chars => chars
  (items? chars).bind ofItems?

end ChainDiagram.Toml
