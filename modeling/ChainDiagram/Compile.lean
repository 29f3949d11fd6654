import ChainDiagram.Draft
import ChainDiagram.Source
import ChainDiagram.Statement.Reader

/-!
# Compiling diagrams

A diagram is compiled in one pass over its lines; the first line that is no statement, or that does
not fit the lines before it, ends the pass with its error. Only when all lines are read are the uses
of variables checked, and the graph is drawn.
-/

set_option autoImplicit false

namespace ChainDiagram

/-- Reads a line of a diagram into a draft. -/
def Draft.readLine (d : Draft) (line : SourceLine) : Except Diagnostic Draft :=
  match Statement.read line.text with
  | .error e => .error (.syntaxError line.number (line.column e.pos) e.fault.message)
  | .ok statement =>
    match d.add line.number statement with
    | (.error e, _) => .error e
    | (.ok (), d) => .ok d

/-- The graph of a diagram, or the first error in it. -/
def compile (source : String) : Except Diagnostic Graph := do
  let d ← (sourceLines source).foldlM Draft.readLine .empty
  d.graph

end ChainDiagram
