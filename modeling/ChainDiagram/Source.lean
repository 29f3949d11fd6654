import ChainDiagram.Line
import ChainDiagram.Text.Whitespace

/-!
# The lines of a source text

A source text is read line by line. Lines that are blank or hold only a comment say nothing; the
others are handed on without the whitespace around them and without a comment behind them, together
with the numbers that lead from a position in them back to a line and a column of the source.
-/

set_option autoImplicit false

namespace ChainDiagram

/-- A line that says something. -/
structure SourceLine where
  /-- The number of the line in the source, from one. -/
  number : Nat
  /-- How many characters of whitespace stand in front of the text. -/
  indent : Nat
  text : Line
  deriving DecidableEq, Repr

/-- The column in the source of a position in the text, from one. -/
def SourceLine.column (line : SourceLine) (pos : Nat) : Nat := line.indent + pos + 1

/-- The line with a number, if it says something. A carriage return at the end of a line is
whitespace, so both kinds of line ends are understood. -/
def SourceLine.ofRaw? (number : Nat) (raw : Line) : Option SourceLine :=
  let trimmed := trim raw
  if trimmed.isEmpty ∨ trimmed.head? = some '#' then none
  else some ⟨number, (raw.takeWhile isWhitespace).length, Line.withoutComment trimmed⟩

/-- The lines that say something, given the lines from a number on. -/
def significantLines (number : Nat) : List Line → List SourceLine
  | [] => []
  | raw :: rest =>
    (SourceLine.ofRaw? number raw).toList ++ significantLines (number + 1) rest

/-- The lines of a source text that say something. -/
def sourceLines (source : String) : List SourceLine :=
  significantLines 1 (source.toList.splitOn '\n')

end ChainDiagram
