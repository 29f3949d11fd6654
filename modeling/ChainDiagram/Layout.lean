import ChainDiagram.Graph
import ChainDiagram.Layout.Placement
import ChainDiagram.Layout.Settings

/-!
# Laying out a diagram

A diagram is drawn as one column of nodes. Each node gets a box around the middle of its row, and
each link a line from middle to middle.

Boxes are found by the ids of nodes. A graph that was read from elsewhere may name nodes that it
does not have, and then there is no layout.
-/

set_option autoImplicit false

namespace ChainDiagram

/-- Where a node is drawn. -/
structure NodeBox where
  id : Nat
  /-- The row of the node, from zero at the top. -/
  order : Nat
  enclosure : Enclosure
  bounds : Box

/-- Where a link is drawn. -/
structure EdgeLine where
  source : Nat
  destination : Nat
  start : Point
  stop : Point

/-- Whether a link leads back to where it starts. -/
def EdgeLine.isLoop (edge : EdgeLine) : Bool := edge.source = edge.destination

/-- A diagram with everything in its place. -/
structure Layout where
  nodes : List NodeBox
  edges : List EdgeLine
  placement : Placement

/-- The least box around all nodes. -/
def Layout.bounds (layout : Layout) : Box := .hull (layout.nodes.map (·.bounds))

/-- The box of a node, given the order of the nodes. -/
def Node.box (settings : Settings) (order : List Nat) (node : Node) : NodeBox :=
  let row := order.idxOf node.id
  let center : Point :=
    ⟨settings.originX, settings.originY + settings.rowSpacing * Float32.ofNat row⟩
  let (width, height) := settings.boxSize node.value node.enclosure
  ⟨node.id, row, node.enclosure, .centered center width height⟩

/-- The line of a link between two boxes. -/
def EdgeLine.between? (boxes : List NodeBox) (edge : Nat × Nat) : Option EdgeLine := do
  let start ← boxes[edge.1]?
  let stop ← boxes[edge.2]?
  return ⟨edge.1, edge.2, start.bounds.center, stop.bounds.center⟩

/-- The layout of a graph, unless a node or a link carries an id that no node stands under. -/
def Graph.layout? (g : Graph) (settings : Settings) : Option Layout :=
  let placement := g.placement settings.chainSearchStepLimit
  if placement.order.all (· < g.size) then
    let nodes := g.nodes.toList.map (Node.box settings placement.order)
    (g.edges.mapM (EdgeLine.between? nodes)).map fun edges => ⟨nodes, edges, placement⟩
  else none

end ChainDiagram
