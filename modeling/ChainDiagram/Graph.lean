import ChainDiagram.Enclosure

/-!
# Diagram graphs

The nodes of a diagram stand in a row, and each lists the ids of the nodes that its links lead to.

A node has two numbers: its index, under which it is looked up (`Graph.node?`), and the id that it
carries, under which links and the layout name it. `addNode` keeps them equal, and `link?` refuses
an end that no node has; a graph that was read from elsewhere promises neither.

## What is here

* `Node`, `Graph`, and how a graph grows: `Graph.addNode`, `Graph.link?`.
* `Graph.node?`, `Graph.nodeNamed?`, `Graph.edges`, `Graph.edgeCount`: how it is looked at.
-/

set_option autoImplicit false

namespace ChainDiagram

/-- A node: the variable or literal it stands for, the text it shows, the shape it is drawn with,
and the nodes that it links to, in the order in which the links were made. -/
structure Node where
  id : Nat
  varname : String
  value : String
  enclosure : Enclosure
  adjacents : List Nat
  deriving DecidableEq, Repr

/-- A directed graph. A link that is made twice is there twice. -/
structure Graph where
  nodes : Array Node
  deriving DecidableEq, Repr

namespace Graph

/-- The graph without nodes. -/
def empty : Graph := ⟨#[]⟩

/-- The number of nodes. -/
def size (g : Graph) : Nat := g.nodes.size

/-- The node at an index. -/
def node? (g : Graph) (index : Nat) : Option Node := g.nodes[index]?

theorem node?_isSome_iff {g : Graph} {index : Nat} : (g.node? index).isSome ↔ index < g.size := by
  simp [node?, size]

/-- Appends a node without links. Its id is its index, which is the size of the graph before. -/
def addNode (g : Graph) (varname value : String) (enclosure : Enclosure) : Graph :=
  ⟨g.nodes.push ⟨g.size, varname, value, enclosure, []⟩⟩

@[simp] theorem size_addNode (g : Graph) (varname value : String) (enclosure : Enclosure) :
    (g.addNode varname value enclosure).size = g.size + 1 := by
  simp [addNode, size]

/-- Links two nodes, given by their indices. There is no such graph if one of them is missing. -/
def link? (g : Graph) (source destination : Nat) : Option Graph :=
  if source < g.size ∧ destination < g.size then
    some ⟨g.nodes.modify source fun node =>
      { node with adjacents := node.adjacents ++ [destination] }⟩
  else none

theorem link?_isSome_iff {g : Graph} {source destination : Nat} :
    (g.link? source destination).isSome ↔ source < g.size ∧ destination < g.size := by
  unfold link?
  split <;> simp_all

/-- Links two nodes if both are there, and else changes nothing. -/
def link (g : Graph) (source destination : Nat) : Graph := (g.link? source destination).getD g

/-- The links as pairs of ids: node by node, and each node's in their order. -/
def edges (g : Graph) : List (Nat × Nat) :=
  g.nodes.toList.flatMap fun node => node.adjacents.map (node.id, ·)

/-- The number of links. -/
def edgeCount (g : Graph) : Nat := (g.nodes.toList.flatMap (·.adjacents)).length

theorem length_edges (g : Graph) : g.edges.length = g.edgeCount := by
  simp [edges, edgeCount, List.length_flatMap]

/-- The first node with a variable name and an enclosure. -/
def nodeNamed? (g : Graph) (varname : String) (enclosure : Enclosure) : Option Node :=
  g.nodes.find? fun node => node.varname = varname ∧ node.enclosure = enclosure

end Graph

end ChainDiagram
