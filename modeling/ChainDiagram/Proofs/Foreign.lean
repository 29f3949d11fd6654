import ChainDiagram.Proofs.Placement

/-!
# Graphs from elsewhere

A graph that was read from a file may be no graph that could have been built: ids repeat or do not
fit the places of the nodes, and links lead nowhere. The search for the chain finds nodes by their
places, while boxes and lines are found by ids. Still a graph has a layout under one condition,
which does not depend on the settings: whatever it names is the place of some node.

## What is here

* `Graph.Names`: the ids of the nodes of a graph, and what their links lead to.
* `Graph.layout?_eq_none_iff`: which graphs have no layout.
* `Layout.Stacks`: what the layout of the others shows.
* `layout_exists_exactly_for_known_names`: both together.
-/

set_option autoImplicit false

namespace ChainDiagram

/-- A graph names the ids of its nodes and what their links lead to. -/
def Graph.Names (g : Graph) (i : Nat) : Prop :=
  ∃ node ∈ g.nodes.toList, i = node.id ∨ i ∈ node.adjacents

/-- The walk meets what the graph names. -/
theorem Graph.mem_walk_iff_names {g : Graph} {i : Nat} : i ∈ g.walk ↔ g.Names i := by
  simp only [walk, Names, List.mem_flatMap, List.mem_cons]

/-- **The layout of any graph that has one**, with these settings. -/
structure Layout.Stacks (layout : Layout) (g : Graph) (settings : Settings) : Prop where
  /-- There is a box for each node, and the boxes are in the order of the nodes. -/
  nodes : layout.nodes = g.nodes.toList.map (Node.box settings layout.placement.order)
  /-- A box is in the row in which its id is placed. Nodes with the same id share a row. -/
  row : ∀ box ∈ layout.nodes, layout.placement.order[box.order]? = some box.id
  /-- There is a line for each link, and the lines are in the order of the links. -/
  edges : layout.edges.map (fun edge => (edge.source, edge.destination)) = g.edges
  /-- Nothing is placed twice. -/
  nodup_order : layout.placement.order.Nodup
  /-- What the graph names is placed, and so is the longest chain from node 0, if the steps suffice
  to find it. -/
  mem_order_iff : ∀ i, i ∈ layout.placement.order ↔
    ((g.chainWithin? 0 settings.chainSearchStepLimit).isSome ∧ i ∈ g.chainFrom 0) ∨ g.Names i

namespace Graph

variable {g : Graph}

/-- **A graph that names its nodes only has a layout.** -/
theorem exists_layout?_of_names (h : ∀ i, g.Names i → i < g.size) (settings : Settings) :
    ∃ layout, g.layout? settings = some layout ∧ layout.Stacks g settings := by
  obtain ⟨lines, hedges, hlayout⟩ :=
    exists_layout?_of_walk (fun i hi => h i (mem_walk_iff_names.1 hi)) settings
  have hmem := fun i => g.mem_order_iff settings.chainSearchStepLimit (i := i)
  simp only [mem_walk_iff_names] at hmem
  refine ⟨_, hlayout, rfl, fun box hbox => ?_, hedges, g.nodup_order _, hmem⟩
  obtain ⟨node, hnode, rfl⟩ := List.mem_map.1 hbox
  exact List.getElem?_idxOf ((hmem node.id).2 (.inr ⟨node, hnode, .inl rfl⟩))

/-- **A graph that names anything else has none**: it is placed, but there is no row for it. -/
theorem layout?_eq_none {i : Nat} (hname : g.Names i) (hsize : g.size ≤ i) (settings : Settings) :
    g.layout? settings = none := by
  have hplaced : i ∈ (g.placement settings.chainSearchStepLimit).order :=
    (g.mem_order_iff _).2 (.inr (mem_walk_iff_names.2 hname))
  have hnot : ¬(g.placement settings.chainSearchStepLimit).order.all (· < g.size) := by
    rw [List.all_eq_true]
    intro hall
    exact absurd (of_decide_eq_true (hall i hplaced)) (Nat.not_lt.2 hsize)
  simp only [layout?, if_neg hnot]

theorem layout?_eq_none_iff {settings : Settings} :
    g.layout? settings = none ↔ ∃ i, g.Names i ∧ g.size ≤ i := by
  refine ⟨fun h => ?_, fun ⟨i, hname, hsize⟩ => layout?_eq_none hname hsize settings⟩
  by_contra hnone
  have hknown : ∀ i, g.Names i → i < g.size := fun i hname =>
    Nat.lt_of_not_le fun hsize => hnone ⟨i, hname, hsize⟩
  obtain ⟨layout, hlayout, -⟩ := exists_layout?_of_names hknown settings
  rw [h] at hlayout
  cases hlayout

end Graph

/-- **A graph has a layout exactly if all that it names are places of its nodes.** Whatever the
settings are, there is none if the id of a node, or what a link leads to, is not below the number of
nodes. Otherwise there is a layout with a box for each node and a line for each link. Its column
holds, without repetitions, the ids of the nodes, what the links lead to, and the nodes of the
longest chain from node 0 unless the search for it is given up. -/
theorem layout_exists_exactly_for_known_names (g : Graph) (settings : Settings) :
    (g.layout? settings = none ↔ ∃ i, g.Names i ∧ g.size ≤ i) ∧
    ((∀ i, g.Names i → i < g.size) →
      ∃ layout, g.layout? settings = some layout ∧ layout.Stacks g settings) :=
  ⟨Graph.layout?_eq_none_iff, fun h => Graph.exists_layout?_of_names h settings⟩

/-- Two nodes with the id 1. No id and no link names node 0. -/
def Graph.foreign : Graph := ⟨#[⟨1, "a", "A", .rectangle, [1]⟩, ⟨1, "b", "B", .other, []⟩]⟩

theorem Graph.eq_one_of_foreign_names {i : Nat} (h : Graph.foreign.Names i) : i = 1 := by
  obtain ⟨node, hnode, hi⟩ := h
  simp only [Graph.foreign, List.mem_cons, List.not_mem_nil, or_false] at hnode
  rcases hnode with rfl | rfl <;> simpa using hi

theorem Graph.lt_size_of_foreign_names (i : Nat) (h : Graph.foreign.Names i) :
    i < Graph.foreign.size := by
  rw [Graph.eq_one_of_foreign_names h]
  decide

theorem Graph.chainFrom_foreign : Graph.foreign.chainFrom 0 = [0, 1] := by cbv

/-- Node 0 is placed, since the chain starts from it. -/
theorem layout_exists_exactly_for_known_names_foreign :
    (∀ i, Graph.foreign.Names i → i < Graph.foreign.size) ∧
      ∃ layout, Graph.foreign.layout? {} = some layout ∧ layout.Stacks Graph.foreign {} ∧
        0 ∈ layout.placement.order := by
  obtain ⟨layout, hlayout, hstacks⟩ :=
    (layout_exists_exactly_for_known_names Graph.foreign {}).2 Graph.lt_size_of_foreign_names
  have hfound : Graph.foreign.chainWithin? 0 200000 = some [0, 1] := by cbv
  refine ⟨Graph.lt_size_of_foreign_names, layout, hlayout, hstacks,
    (hstacks.mem_order_iff 0).2 (.inl ⟨Option.isSome_of_eq_some hfound, ?_⟩)⟩
  rw [Graph.chainFrom_foreign]
  exact List.mem_cons_self

/-- **Without steps to search for the chain, node 0 is not placed**, although the longest chain
starts from it. -/
theorem not_forall_mem_order_iff_foreign :
    ∃ layout, Graph.foreign.layout? { chainSearchStepLimit := 0 } = some layout ∧
      ¬∀ i, i ∈ layout.placement.order ↔
        i ∈ Graph.foreign.chainFrom 0 ∨ Graph.foreign.Names i := by
  obtain ⟨layout, hlayout, hstacks⟩ := Graph.exists_layout?_of_names
    Graph.lt_size_of_foreign_names { chainSearchStepLimit := 0 }
  have hgiven_up : (Graph.foreign.chainWithin? 0 0).isSome = false := by cbv
  have hmem : 0 ∈ Graph.foreign.chainFrom 0 := by
    rw [Graph.chainFrom_foreign]
    exact List.mem_cons_self
  refine ⟨layout, hlayout, fun hall => ?_⟩
  rcases (hstacks.mem_order_iff 0).1 ((hall 0).2 (.inl hmem)) with ⟨hfound, -⟩ | hname
  · exact absurd hfound (Bool.eq_false_iff.1 hgiven_up)
  · exact absurd (Graph.eq_one_of_foreign_names hname) (by decide)

end ChainDiagram
