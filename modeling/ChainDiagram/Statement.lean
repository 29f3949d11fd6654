import ChainDiagram.Arrow
import ChainDiagram.Enclosure

/-!
# Statements

A source line that says anything is a statement: it declares a variable, or it draws a chain of
elements joined by arrows. This file holds what the two mean; `ChainDiagram.Statement.Reader` reads
them from text.
-/

set_option autoImplicit false

namespace ChainDiagram

/-- A variable and the value that it stands for, written `name := "value"`. -/
structure Declaration where
  name : String
  value : String
  deriving DecidableEq, Repr

/-- What stands between the brackets of an element. -/
inductive Label where
  /-- A string, which is the text of the node. -/
  | literal (text : String)
  /-- A variable, which holds the text of the node. -/
  | reference (name : String)
  deriving DecidableEq, Repr

/-- One element of a chain. -/
structure Element where
  enclosure : Enclosure
  label : Label
  deriving DecidableEq, Repr

/-- A chain: its elements from left to right, and the arrows between them. A chain that was read
from a line has one arrow less than it has elements. -/
structure Chain where
  elements : List Element
  arrows : List Arrow
  deriving DecidableEq, Repr

/-- The neighbouring pairs of a list. -/
def adjacentPairs {α : Type} : List α → List (α × α)
  | [] => []
  | a :: rest => (a :: rest).zip rest

theorem length_adjacentPairs {α : Type} (l : List α) : (adjacentPairs l).length = l.length - 1 := by
  cases l <;> simp [adjacentPairs]

/-- The links of a chain from left to right: each pair of neighbours with the arrow between them.
There are no more links than arrows. -/
def Chain.links (chain : Chain) : List (Element × Arrow × Element) :=
  ((adjacentPairs chain.elements).zip chain.arrows).map
    fun ((left, right), arrow) => (left, arrow, right)

theorem Chain.length_links (chain : Chain) :
    chain.links.length = min (chain.elements.length - 1) chain.arrows.length := by
  simp [Chain.links, length_adjacentPairs]

/-- What one line of a diagram says. -/
inductive Statement where
  | declaration (declaration : Declaration)
  | chain (chain : Chain)
  deriving DecidableEq, Repr

end ChainDiagram
