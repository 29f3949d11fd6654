import ChainDiagram.Toml

/-!
# Filling the tables of a document

A document puts its entries into tables one after the other. This file says where an entry goes and
which entries are refused: a name is given once, a table has one header at most, and dotted keys add
only to tables that dotted keys have made.
-/

set_option autoImplicit false

namespace ChainDiagram.Toml

/-- Changes the value of a name, which is appended if it is new. -/
def alter (name : String) (change : Option Value → Option Value) : Entries → Option Entries
  | [] => (change none).map fun value => [(name, value)]
  | (other, value) :: rest =>
    if other = name then (change (some value)).map fun value => (name, value) :: rest
    else (alter name change rest).map ((other, value) :: ·)

/-- Adds the value of a dotted key. -/
def insert (value : Value) : List String → Entries → Option Entries
  | [], _ => none
  | [name], entries =>
    alter name
      (fun
        | none => some value
        | some _ => none)
      entries
  | name :: path, entries =>
    alter name
      (fun
        | none => (insert value path []).map (.table .dotted)
        | some (.table .dotted inner) => (insert value path inner).map (.table .dotted)
        | some _ => none)
      entries

/-- Changes the table that a header's path leads to. A table on the way that is not there yet is
made, and of tables that share a header the last one is meant. -/
def within (change : Entries → Option Entries) : List String → Entries → Option Entries
  | [], entries => change entries
  | name :: path, entries =>
    alter name
      (fun
        | none => (within change path []).map (.table .implied)
        | some (.table .inline _) => none
        | some (.table kind inner) => (within change path inner).map (.table kind)
        | some (.tables before last) => (within change path last).map (.tables before)
        | some _ => none)
      entries

/-- Gives a table its header. -/
def openTable (name : String) : Entries → Option Entries :=
  alter name fun
    | none => some (.table .headed [])
    | some (.table .implied inner) => some (.table .headed inner)
    | some _ => none

/-- Starts another one of the tables that share a header. -/
def openTableOf (name : String) : Entries → Option Entries :=
  alter name fun
    | none => some (.tables [] [])
    | some (.tables before last) => some (.tables (before ++ [last]) [])
    | some _ => none

/-- What a line of a document says. -/
inductive Item where
  /-- A header in single brackets: the names in front of the last one, and that. -/
  | header (path : List String) (name : String)
  /-- A header in double brackets. -/
  | arrayHeader (path : List String) (name : String)
  /-- A key and its value. -/
  | entry (key : List String) (value : Value)
  deriving Repr

/-- The entries of a document so far, and the path of the last header. -/
structure Filling where
  entries : Entries
  path : List String

/-- Takes one item. -/
def Filling.add (filling : Filling) : Item → Option Filling
  | .header path name =>
    (within (openTable name) path filling.entries).map (⟨·, path ++ [name]⟩)
  | .arrayHeader path name =>
    (within (openTableOf name) path filling.entries).map (⟨·, path ++ [name]⟩)
  | .entry key value =>
    (within (insert value key) filling.path filling.entries).map (⟨·, filling.path⟩)

/-- The entries that the items of a document make together. -/
def ofItems? (items : List Item) : Option Entries :=
  (items.foldlM Filling.add ⟨[], []⟩).map (·.entries)

end ChainDiagram.Toml
