import ChainDiagram.NodeKey

/-!
# Links before there is a graph

While a diagram is read, its links are collected under their sources. The sources keep the order in
which they were first used as one, and each keeps its destinations in the order of the links. Every
use remembers its line.

## What is here

* `LinkTable`: rows in that order, with an index from the sources to their rows.
* `LinkTable.sourceSlot`: the row of a source, which is made if there is none.
* `LinkTable.addLink`, `LinkTable.addSource`: the two ways to use a key as a source.
-/

set_option autoImplicit false

namespace ChainDiagram

/-- A source, the line of its first use as one, and the destinations of its links with their
lines. -/
structure LinkRow where
  source : NodeKey
  line : Nat
  destinations : List (NodeKey × Nat)
  deriving DecidableEq, Repr

/-- Adds a destination behind the others. -/
def LinkRow.addDestination (row : LinkRow) (destination : NodeKey) (line : Nat) : LinkRow :=
  { row with destinations := row.destinations ++ [(destination, line)] }

/-- The links of a diagram: a row for each source, and an index that says which row it is, so that
the rows need not be searched. -/
structure LinkTable where
  rows : List LinkRow
  index : List (NodeKey × Nat)
  deriving DecidableEq, Repr

namespace LinkTable

/-- No links. -/
def empty : LinkTable := ⟨[], []⟩

/-- The slot of a source, which is the number of its row. -/
def slot? (table : LinkTable) (source : NodeKey) : Option Nat := table.index.lookup source

theorem slot?_cons (rows : List LinkRow) (index : List (NodeKey × Nat)) (source key : NodeKey)
    (slot : Nat) :
    (LinkTable.mk rows ((source, slot) :: index)).slot? key =
      if key = source then some slot else index.lookup key := by
  rw [slot?]
  split
  · rename_i h
    rw [h, List.lookup_cons_self]
  · rename_i h
    rw [List.lookup_cons, beq_false_of_ne h]

/-- The slot of a source, and the table in which it has one. A new source gets a row without links,
behind the others. -/
def sourceSlot (table : LinkTable) (source : NodeKey) (line : Nat) : Nat × LinkTable :=
  match table.slot? source with
  | some slot => (slot, table)
  | none =>
    (table.rows.length,
      ⟨table.rows ++ [⟨source, line, []⟩], (source, table.rows.length) :: table.index⟩)

theorem sourceSlot_of_some {table : LinkTable} {source : NodeKey} {slot : Nat}
    (h : table.slot? source = some slot) (line : Nat) :
    table.sourceSlot source line = (slot, table) := by
  rw [sourceSlot, h]

theorem sourceSlot_of_none {table : LinkTable} {source : NodeKey} (h : table.slot? source = none)
    (line : Nat) :
    table.sourceSlot source line =
      (table.rows.length,
        ⟨table.rows ++ [⟨source, line, []⟩], (source, table.rows.length) :: table.index⟩) := by
  rw [sourceSlot, h]

/-- Adds a link to the row at the slot of its source. There is no such table if the slot is not that
of a row. -/
def addLink? (table : LinkTable) (source destination : NodeKey) (line : Nat) : Option LinkTable :=
  let (slot, table) := table.sourceSlot source line
  if slot < table.rows.length then
    some { table with rows := table.rows.modify slot (·.addDestination destination line) }
  else none

/-- Adds a link if there is a row for it, and else changes nothing. -/
def addLink (table : LinkTable) (source destination : NodeKey) (line : Nat) : LinkTable :=
  (table.addLink? source destination line).getD table

/-- Makes a key a source, if it is none yet, without a link. -/
def addSource (table : LinkTable) (source : NodeKey) (line : Nat) : LinkTable :=
  (table.sourceSlot source line).2

/-- The number of links. -/
def linkCount (table : LinkTable) : Nat := (table.rows.flatMap (·.destinations)).length

end LinkTable

end ChainDiagram
