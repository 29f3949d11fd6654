import ChainDiagram.Bindings
import ChainDiagram.Diagnostic
import ChainDiagram.Graph
import ChainDiagram.LinkTable

/-!
# From statements to a graph

A draft takes the statements of a diagram one after the other and ends as a graph. A variable may be
declared after its use, so names are only looked up at the end (`Draft.graph`). Nodes are numbered
in the order in which a walk along the link table meets them: each source, followed by its
destinations.

A statement that is refused may leave traces: a chain with a literal that collides has bound the
literals to the left of it.
-/

set_option autoImplicit false

namespace ChainDiagram

/-- What has been read of a diagram: the names of variables and literals, the links, and the
variables that are used, each with the line of its first use, in the order of these uses. -/
structure Draft where
  bindings : Bindings
  links : LinkTable
  uses : List (String × Nat)
  deriving DecidableEq, Repr

namespace Draft

/-- The draft of the empty diagram. -/
def empty : Draft := ⟨.empty, .empty, []⟩

/-! ## Taking statements -/

/-- Takes a declaration. -/
def addDeclaration (d : Draft) (line : Nat) (declaration : Declaration) :
    Except Diagnostic Unit × Draft :=
  match d.bindings.bindNew? declaration.name declaration.value with
  | some bindings => (.ok (), { d with bindings })
  | none => (.error (.duplicateDeclaration line declaration.name), d)

/-- Remembers that a variable is used. Only its first use counts. -/
def addUse (d : Draft) (line : Nat) (name : String) : Draft :=
  if name ∈ d.uses.map Prod.fst then d else { d with uses := d.uses ++ [(name, line)] }

/-- Takes the label of an element: the name of a literal is bound to its text, and the use of a
variable is remembered. -/
def addElement (d : Draft) (line : Nat) (element : Element) : Except Diagnostic Unit × Draft :=
  match element.label with
  | .literal text =>
    match d.bindings.bindSame? element.key.name text with
    | some bindings => (.ok (), { d with bindings })
    | none => (.error (.literalCollision line text), d)
  | .reference name => (.ok (), d.addUse line name)

/-- Takes the labels of several elements, from left to right up to the first that is refused. -/
def addElements (d : Draft) (line : Nat) : List Element → Except Diagnostic Unit × Draft
  | [] => (.ok (), d)
  | element :: rest =>
    match d.addElement line element with
    | (.error e, d) => (.error e, d)
    | (.ok (), d) => d.addElements line rest

/-- Adds the links between the nodes of a chain. A node that stands alone becomes a source without
links. -/
def addLinks (line : Nat) (table : LinkTable) (keys : List NodeKey) (arrows : List Arrow) :
    LinkTable :=
  match keys with
  | [only] => table.addSource only line
  | keys =>
    ((adjacentPairs keys).zip arrows).foldl
      (fun table ((left, right), arrow) =>
        let (source, destination) := arrow.ends left right
        table.addLink source destination line)
      table

/-- Takes a chain. -/
def addChain (d : Draft) (line : Nat) (chain : Chain) : Except Diagnostic Unit × Draft :=
  match d.addElements line chain.elements with
  | (.error e, d) => (.error e, d)
  | (.ok (), d) =>
    let keys := chain.elements.map Element.key
    (.ok (), { d with links := addLinks line d.links keys chain.arrows })

/-- Takes a statement. -/
def add (d : Draft) (line : Nat) : Statement → Except Diagnostic Unit × Draft
  | .declaration declaration => d.addDeclaration line declaration
  | .chain chain => d.addChain line chain

/-! ## Drawing the graph -/

/-- The first variable that is used and not declared, with the line of its first use. -/
def undeclared? (d : Draft) : Option (String × Nat) :=
  d.uses.find? fun (name, _) => (d.bindings.value? name).isNone

/-- The id of the node with a key. If the graph has none yet, it is added. -/
def place (bindings : Bindings) (g : Graph) (key : NodeKey) (line : Nat) :
    Except Diagnostic (Graph × Nat) :=
  match g.nodeNamed? key.name key.enclosure with
  | some node => .ok (g, node.id)
  | none =>
    match bindings.value? key.name with
    | some value => .ok (g.addNode key.name value key.enclosure, g.size)
    | none => .error (.undefinedVariable line key.name)

/-- Adds a link from a node that is there. -/
def placeLink (bindings : Bindings) (source : Nat) (g : Graph) (destination : NodeKey × Nat) :
    Except Diagnostic Graph := do
  let (g, id) ← place bindings g destination.1 destination.2
  return g.link source id

/-- Adds a source and its links. -/
def placeRow (bindings : Bindings) (g : Graph) (row : LinkRow) : Except Diagnostic Graph := do
  let (g, source) ← place bindings g row.source row.line
  row.destinations.foldlM (placeLink bindings source) g

/-- The graph of the diagram, if every variable that is used is declared. -/
def graph (d : Draft) : Except Diagnostic Graph :=
  match d.undeclared? with
  | some (name, line) => .error (.undefinedVariable line name)
  | none => d.links.rows.foldlM (placeRow d.bindings) .empty

end Draft

end ChainDiagram
