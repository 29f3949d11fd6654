import ChainDiagram.Graph
import ChainDiagram.Json.Writer

/-!
# The census of a graph

How many nodes and links a graph has, and how many nodes of each shape. It is the short answer to
whether a diagram came out as it was meant.
-/

set_option autoImplicit false

namespace ChainDiagram

/-- The number of nodes with an enclosure. -/
def Graph.countOf (g : Graph) (enclosure : Enclosure) : Nat :=
  g.nodes.toList.countP (·.enclosure = enclosure)

/-- Every node has one of the four shapes. -/
theorem Graph.countOf_add (g : Graph) :
    g.countOf .rectangle + g.countOf .roundedRectangle + g.countOf .parallelogram +
      g.countOf .other = g.size := by
  unfold countOf size
  rw [← Array.length_toList]
  induction g.nodes.toList with
  | nil => rfl
  | cons node nodes ih =>
    simp only [List.countP_cons, List.length_cons]
    cases node.enclosure <;> simp <;> omega

/-- The census as a JSON value, with its keys in alphabetical order. -/
def Graph.census (g : Graph) : Json :=
  .object [
    ("edge_count", .ofNat g.edgeCount),
    ("node_count", .ofNat g.size),
    ("other_count", .ofNat (g.countOf .other)),
    ("parallelogram_count", .ofNat (g.countOf .parallelogram)),
    ("rectangle_count", .ofNat (g.countOf .rectangle)),
    ("rounded_rectangle_count", .ofNat (g.countOf .roundedRectangle))]

end ChainDiagram
