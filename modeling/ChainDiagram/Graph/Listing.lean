import ChainDiagram.Graph

/-!
# The text listing of a graph

A listing has two parts: under `NODES` a line for each node, and under `LINKS` a line with the
targets of each node. Texts stand in it as they are, without quotes.
-/

set_option autoImplicit false

namespace ChainDiagram

/-- The line of a node in the first part of a listing, such as `0: a -> Alpha, rectangle`. -/
def Node.listing (node : Node) : String :=
  toString node.id ++ ": " ++ node.varname ++ " -> " ++ node.value ++ ", " ++ node.enclosure.name

/-- The line of a node in the second part of a listing, such as `0 -> [1, 2]`. -/
def Node.linkListing (node : Node) : String :=
  toString node.id ++ " -> [" ++ ", ".intercalate (node.adjacents.map toString) ++ "]"

/-- A text of lines, each ended by a line feed. -/
def unlines (lines : List String) : String := String.join (lines.map (· ++ "\n"))

/-- The listing of a graph. -/
def Graph.listing (g : Graph) : String :=
  unlines <|
    "NODES" :: g.nodes.toList.map Node.listing ++
      "" :: "LINKS" :: g.nodes.toList.map Node.linkListing

end ChainDiagram
