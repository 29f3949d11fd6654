/-!
# Enclosures

A chain element is written between two brackets, and the pair of brackets chooses the shape its
node is drawn with.

## What is here

* `Enclosure`: the four pairs.
* `opener`, `closer`, `name`: how a pair is written, and what its shape is called.
* `ofOpener?`: the pair that a character opens; it undoes `opener` (`ofOpener?_eq_some_iff`), so
  no two pairs open alike.
-/

set_option autoImplicit false

namespace ChainDiagram

/-- The bracket pair around a chain element. -/
inductive Enclosure where
  /-- Square brackets, `[…]`. -/
  | rectangle
  /-- Round brackets, `(…)`. -/
  | roundedRectangle
  /-- Two slashes, `/…/`. -/
  | parallelogram
  /-- Angle brackets, `<…>`, which stand for no particular shape. -/
  | other
  deriving DecidableEq, Repr, Inhabited

namespace Enclosure

/-- Every enclosure. -/
def all : List Enclosure := [rectangle, roundedRectangle, parallelogram, other]

theorem mem_all (e : Enclosure) : e ∈ all := by cases e <;> decide

/-- The character that starts an element. -/
def opener : Enclosure → Char
  | rectangle => '['
  | roundedRectangle => '('
  | parallelogram => '/'
  | other => '<'

/-- The character that ends an element. -/
def closer : Enclosure → Char
  | rectangle => ']'
  | roundedRectangle => ')'
  | parallelogram => '/'
  | other => '>'

/-- The name of the shape. -/
def name : Enclosure → String
  | rectangle => "rectangle"
  | roundedRectangle => "rounded-rectangle"
  | parallelogram => "parallelogram"
  | other => "other"

/-- The enclosure that a character opens. -/
def ofOpener? (c : Char) : Option Enclosure :=
  if c = '[' then some rectangle
  else if c = '(' then some roundedRectangle
  else if c = '/' then some parallelogram
  else if c = '<' then some other
  else none

@[simp] theorem ofOpener?_opener (e : Enclosure) : ofOpener? e.opener = some e := by
  cases e <;> rfl

/-- A character opens exactly the enclosure whose opener it is. -/
theorem ofOpener?_eq_some_iff {c : Char} {e : Enclosure} : ofOpener? c = some e ↔ c = e.opener := by
  constructor
  · unfold ofOpener?
    intro h
    repeat' split at h
    all_goals first | (cases h; assumption) | simp at h
  · rintro rfl
    exact ofOpener?_opener e

theorem opener_injective {e e' : Enclosure} (h : e.opener = e'.opener) : e = e' := by
  simpa using congrArg ofOpener? h

end Enclosure

end ChainDiagram
