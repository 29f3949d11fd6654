import ChainDiagram.Graph.LongestChain

/-!
# The order of the nodes

In the column that a diagram is drawn as, the longest chain from the first node comes first. The
other nodes follow in the order in which a walk meets them that goes through the nodes and looks at
the targets of each. If the search for the chain takes too long, the walk alone decides.
-/

set_option autoImplicit false

namespace ChainDiagram

/-- The order of the nodes, given by their ids from top to bottom. -/
structure Placement where
  order : List Nat
  /-- The length of the chain that comes first. -/
  chainLength : Nat
  /-- Whether the search for the chain was given up. -/
  chainSkipped : Bool
  deriving DecidableEq, Repr

namespace Graph

/-- Each node followed by the targets of its links. -/
def walk (g : Graph) : List Nat := g.nodes.toList.flatMap fun node => node.id :: node.adjacents

/-- The order of the nodes of a graph, where the search for the chain may take so many steps. -/
def placement (g : Graph) (limit : Nat) : Placement :=
  if g.size = 0 then ⟨[], 0, false⟩
  else
    match g.chainWithin? 0 limit with
    | some chain => ⟨(chain ++ g.walk).eraseDups, chain.length, false⟩
    | none => ⟨g.walk.eraseDups, 0, true⟩

end Graph

end ChainDiagram
