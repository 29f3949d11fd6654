import ChainDiagram.Graph

/-!
# The longest chain from a node

A chain follows links and never comes back to a node that it has left. The search for the longest
one goes depth first through every chain, so its time may grow exponentially with the graph.

## What is here

* `longestChain g start visited`: the longest chain from `start` that keeps away from `visited`. Of
  several that are longest it takes the one that at each node follows the earliest link.
* `chainWithin? g start limit`: the same search, given up when it needs more steps than
  `limit`.

Both searches end because the path they are on leaves fewer and fewer nodes to visit
(`unvisited_lt`).
-/

set_option autoImplicit false

namespace ChainDiagram

namespace Graph

/-- How many nodes of a graph are not among the visited ones. -/
def unvisited (g : Graph) (visited : List Nat) : Nat :=
  (List.range g.size).countP (· ∉ visited)

theorem countP_lt_countP {p q : Nat → Bool} {l : List Nat} (h : ∀ i ∈ l, p i → q i) {a : Nat}
    (ha : a ∈ l) (hq : q a) (hp : ¬p a) : l.countP p < l.countP q := by
  induction l with
  | nil => cases ha
  | cons b l ih =>
    have hle : l.countP p ≤ l.countP q := List.countP_mono_left fun i hi => h i (.tail _ hi)
    rw [List.countP_cons, List.countP_cons]
    rcases List.mem_cons.1 ha with rfl | ha
    · rw [if_neg hp, if_pos hq]
      exact Nat.lt_succ_of_le hle
    · refine Nat.add_lt_add_of_lt_of_le (ih (fun i hi => h i (.tail _ hi)) ha) ?_
      by_cases hb : p b
      · exact Nat.le_of_eq (by rw [if_pos hb, if_pos (h b (.head _) hb)])
      · exact if_neg hb ▸ Nat.zero_le _

theorem unvisited_le (g : Graph) (visited : List Nat) (a start : Nat) :
    g.unvisited (a :: start :: visited) ≤ g.unvisited visited :=
  List.countP_mono_left fun i _ => by simp_all

/-- A step onto a node that was not visited leaves fewer nodes to visit. -/
theorem unvisited_lt {g : Graph} {visited : List Nat} {a : Nat} (start : Nat) (ha : a < g.size)
    (hvisited : a ∉ visited) : g.unvisited (a :: start :: visited) < g.unvisited visited :=
  countP_lt_countP (fun i _ => by simp_all) (List.mem_range.2 ha) (by simpa using hvisited)
    (by simp)

/-- How much a search may still do from `start`: nothing if there is no such node, and else no more
than the unvisited nodes allow. -/
def searchMeasure (g : Graph) (start : Nat) (visited : List Nat) : Nat × Nat :=
  (g.unvisited visited, if start < g.size then 1 else 0)

theorem searchMeasure_lt {g : Graph} {start a : Nat} {visited : List Nat} {node : Node}
    (hstart : g.node? start = some node) (ha : a ∉ visited) :
    Prod.Lex (· < ·) (· < ·) (g.searchMeasure a (a :: start :: visited))
      (g.searchMeasure start visited) := by
  have hknown : start < g.size := node?_isSome_iff.1 (by simp [hstart])
  by_cases h : a < g.size
  · exact .left _ _ (unvisited_lt start h ha)
  · rcases Nat.eq_or_lt_of_le (g.unvisited_le visited a start) with heq | hlt
    · simp only [searchMeasure, h, hknown, heq, if_false, if_true]
      exact .right _ Nat.one_pos
    · exact .left _ _ hlt

/-- The longer of two chains; the first one if neither is longer. -/
def longer (first second : List Nat) : List Nat :=
  if first.length < second.length then second else first

/-- The longest chain from `start` onto nodes that are not visited. A node without such links is a
chain by itself, and what is no node at all starts no chain. The start itself need not be unvisited,
so a link of it to itself is followed once. -/
def longestChain (g : Graph) (start : Nat) (visited : List Nat) : List Nat :=
  match _h : g.node? start with
  | none => []
  | some node =>
    start :: node.adjacents.foldl
      (fun best a =>
        if a ∈ visited then best else longer best (g.longestChain a (a :: start :: visited)))
      []
termination_by g.searchMeasure start visited
decreasing_by exact searchMeasure_lt _h ‹_›

/-- The longest chain from a node. -/
def chainFrom (g : Graph) (start : Nat) : List Nat := g.longestChain start []

/-- The search for the longest chain with a budget of steps. Every chain that is tried costs one
step, also one onto what is no node. It answers the chain and the steps that are left, or nothing if
they do not suffice. -/
def boundedSearch (g : Graph) (start : Nat) (visited : List Nat) :
    Nat → Option (List Nat × Nat)
  | 0 => none
  | budget + 1 =>
    match _h : g.node? start with
    | none => some ([], budget)
    | some node => do
      let (best, left) ← node.adjacents.foldlM
        (fun (best, left) a =>
          if a ∈ visited then some (best, left)
          else do
            let (candidate, left) ← g.boundedSearch a (a :: start :: visited) left
            return (longer best candidate, left))
        ([], budget)
      return (start :: best, left)
termination_by g.searchMeasure start visited
decreasing_by exact searchMeasure_lt _h ‹_›

/-- The longest chain from a node, if it is found in so many steps. -/
def chainWithin? (g : Graph) (start limit : Nat) : Option (List Nat) :=
  (g.boundedSearch start [] limit).map Prod.fst

end Graph

end ChainDiagram
