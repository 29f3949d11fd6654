/-!
# TOML values

The tree that a TOML document denotes. A table remembers how it came to be, because a document may
not add to a table in every way: a table with a header has just one, and what stands between braces
is complete.
-/

set_option autoImplicit false

namespace ChainDiagram.Toml

/-- How a table came to be. -/
inductive TableKind where
  /-- It has a header of its own. -/
  | headed
  /-- It only stands in the path of a header. -/
  | implied
  /-- It only stands in the path of a dotted key. -/
  | dotted
  /-- It is written between braces. -/
  | inline
  deriving DecidableEq, Repr

/-- A value of a document. The entries of a table stand in the order in which they are written. -/
inductive Value where
  | integer (n : Int)
  | float (x : Float)
  | string (text : String)
  | bool (value : Bool)
  /-- A date, a time, or both. -/
  | datetime
  | array (items : List Value)
  | table (kind : TableKind) (entries : List (String × Value))
  /-- Tables that share a header in double brackets: those before the last, and the last one. -/
  | tables (before : List (List (String × Value))) (last : List (String × Value))
  deriving Repr

/-- The names of a table with their values. -/
abbrev Entries : Type := List (String × Value)

/-- How many brackets and braces may be open at once, and how many parts a key may have: each of them
is one level of the tree. The two are counted apart, so a long key may stand deep inside of others. -/
def maxDepth : Nat := 79

end ChainDiagram.Toml
