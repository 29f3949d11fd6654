/-!
# Lines, blanks and comments

A line is read from left to right. Its tokens may be separated by blanks, and what follows a `#` is
a comment, unless the `#` belongs to a string.

* `Line.blankEnd`: the position behind the blanks at a position.
* `Line.withoutComment`: a line without its comment.
-/

set_option autoImplicit false

namespace ChainDiagram

/-- The characters of a line. -/
abbrev Line : Type := List Char

/-- Blanks are spaces and tabs. -/
def isBlank (c : Char) : Bool := c = ' ' || c = '\t'

namespace Line

/-- The first position from `pos` on that holds no blank. -/
def blankEnd (line : Line) (pos : Nat) : Nat :=
  pos + ((line.drop pos).takeWhile isBlank).length

theorem le_blankEnd (line : Line) (pos : Nat) : pos ≤ line.blankEnd pos :=
  Nat.le_add_right _ _

/-- The part of a line in front of its first `#` outside of quotes, where `quoted` says whether a
quote is open at the start. -/
def uncommented (quoted : Bool) : Line → Line
  | [] => []
  | c :: rest =>
    if c = '#' ∧ quoted = false then []
    else c :: uncommented (if c = '"' then !quoted else quoted) rest

/-- Only the end of the line is taken away. -/
theorem exists_uncommented_append (quoted : Bool) (line : Line) :
    ∃ comment, uncommented quoted line ++ comment = line := by
  induction line generalizing quoted with
  | nil => exact ⟨[], rfl⟩
  | cons c rest ih =>
    unfold uncommented
    split
    · exact ⟨c :: rest, rfl⟩
    · obtain ⟨comment, h⟩ := ih (if c = '"' then !quoted else quoted)
      exact ⟨comment, by rw [List.cons_append, h]⟩

/-- A line without its comment, which starts at the first `#` that is not between two quotes. -/
def withoutComment (line : Line) : Line := uncommented false line

end Line

end ChainDiagram
