import ChainDiagram.Decimal.Shortest
import ChainDiagram.Graph.Encoding
import ChainDiagram.Layout

/-!
# Layouts in JSON

Numbers of single precision are written with as few digits as denote them. JSON has no infinities
and nothing that is not a number, so these are written as `null`.
-/

set_option autoImplicit false

namespace ChainDiagram

/-- A single-precision number as a JSON value. -/
def Json.ofFloat32 (x : Float32) : Json :=
  match Decimal.ofFloat32? x with
  | some value => .number (.decimal value)
  | none => .null

/-- A point as a JSON value. -/
def Point.toJson (point : Point) : Json :=
  .object [("x", .ofFloat32 point.x), ("y", .ofFloat32 point.y)]

/-- A box as a JSON value. -/
def Box.toJson (box : Box) : Json :=
  .object [("x", .ofFloat32 box.x), ("y", .ofFloat32 box.y), ("width", .ofFloat32 box.width),
    ("height", .ofFloat32 box.height)]

/-- The box of a node as a JSON value. -/
def NodeBox.toJson (node : NodeBox) : Json :=
  .object [("node_id", .ofNat node.id), ("order", .ofNat node.order),
    ("enclosure", node.enclosure.toJson), ("bounds", node.bounds.toJson)]

/-- The line of a link as a JSON value. -/
def EdgeLine.toJson (edge : EdgeLine) : Json :=
  .object [("from", .ofNat edge.source), ("to", .ofNat edge.destination),
    ("points", .array [edge.start.toJson, edge.stop.toJson]), ("is_self_loop", .bool edge.isLoop)]

/-- A layout as a JSON value. -/
def Layout.toJson (layout : Layout) : Json :=
  .object [
    ("nodes", .array (layout.nodes.map NodeBox.toJson)),
    ("edges", .array (layout.edges.map EdgeLine.toJson)),
    ("bounds", layout.bounds.toJson),
    ("placement", .array (layout.placement.order.map .ofNat)),
    ("stats", .object [
      ("node_count", .ofNat layout.nodes.length),
      ("edge_count", .ofNat layout.edges.length),
      ("chain_length", .ofNat layout.placement.chainLength),
      ("chain_search_skipped", .bool layout.placement.chainSkipped)])]

end ChainDiagram
