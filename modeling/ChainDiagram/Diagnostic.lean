import ChainDiagram.Json.Record
import ChainDiagram.Json.Writer
import ChainDiagram.Json.Reader

/-!
# Diagnostics

What can be wrong with a diagram. Lines and columns count from one.

## What is here

* `Diagnostic`: the four kinds of error, with `message`, `code`, `line` and `column?`.
* `Diagnostic.toJson`, `Diagnostic.ofJson?`: errors in JSON.
-/

set_option autoImplicit false

namespace ChainDiagram

/-- Why a diagram could not be compiled, and in which line. -/
inductive Diagnostic where
  /-- A line is no statement. -/
  | syntaxError (line column : Nat) (message : String)
  /-- A variable is declared for the second time. -/
  | duplicateDeclaration (line : Nat) (name : String)
  /-- A variable is used but declared nowhere. -/
  | undefinedVariable (line : Nat) (name : String)
  /-- Two literals with different texts would share a node. -/
  | literalCollision (line : Nat) (text : String)
  deriving DecidableEq, Repr

namespace Diagnostic

/-- The error as it is shown. -/
def message : Diagnostic → String
  | syntaxError line column message =>
    "SyntaxError<Line " ++ toString line ++ ", Col " ++ toString column ++ ">: " ++ message
  | duplicateDeclaration _ name => "SemanticError: variable '" ++ name ++ "' already defined"
  | undefinedVariable _ name => "SemanticError: variable '" ++ name ++ "' is not defined"
  | literalCollision _ text =>
    "SemanticError: literal '" ++ text ++ "' collides with an existing literal"

/-- The kind of the error, for programs. -/
def code : Diagnostic → String
  | syntaxError .. => "diagram/error/syntax"
  | duplicateDeclaration .. => "diagram/error/duplicate-declaration"
  | undefinedVariable .. => "diagram/error/undefined-variable"
  | literalCollision .. => "diagram/error/literal-collision"

/-- The line of the error. -/
def line : Diagnostic → Nat
  | syntaxError line _ _ => line
  | duplicateDeclaration line _ => line
  | undefinedVariable line _ => line
  | literalCollision line _ => line

/-- The column of the error, which only a syntax error has. -/
def column? : Diagnostic → Option Nat
  | syntaxError _ column _ => some column
  | _ => none

/-- An error as a JSON value. -/
def toJson : Diagnostic → Json
  | syntaxError line column message =>
    .object [("Syntax", .object [("line", .ofNat line), ("col", .ofNat column),
      ("message", .string message)])]
  | duplicateDeclaration line name =>
    .object [("DuplicateDeclaration", .object [("line", .ofNat line), ("name", .string name)])]
  | undefinedVariable line name =>
    .object [("UndefinedVariable", .object [("line", .ofNat line), ("name", .string name)])]
  | literalCollision line text =>
    .object [("LiteralCollision", .object [("line", .ofNat line), ("text", .string text)])]

/-- Reads the two fields of an error about a text in a line. -/
def about? (error : Nat → String → Diagnostic) (textName : String) (json : Json) :
    Option Diagnostic :=
  match json.fields? ["line", textName] with
  | some [line, text] => do return error (← line.toNat?) (← text.toText?)
  | _ => none

/-- Reads the fields of a syntax error. -/
def syntaxError? (json : Json) : Option Diagnostic :=
  match json.fields? ["line", "col", "message"] with
  | some [line, column, message] => do
    return syntaxError (← line.toNat?) (← column.toNat?) (← message.toText?)
  | _ => none

/-- Reads an error. -/
def ofJson? (json : Json) : Option Diagnostic :=
  match json.variant? with
  | some ("Syntax", content) => syntaxError? content
  | some ("DuplicateDeclaration", content) => about? duplicateDeclaration "name" content
  | some ("UndefinedVariable", content) => about? undefinedVariable "name" content
  | some ("LiteralCollision", content) => about? literalCollision "text" content
  | _ => none

/-- Reads an error from a JSON text. -/
def ofJsonText? (text : String) : Option Diagnostic := (Json.ofText? text).bind ofJson?

end Diagnostic

end ChainDiagram
