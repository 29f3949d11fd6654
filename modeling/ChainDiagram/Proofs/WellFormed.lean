import ChainDiagram.Compile
import ChainDiagram.Proofs.Grammar

/-!
# Graphs that are built node by node

A graph may come from anywhere, and then its nodes may carry any ids and list any numbers. One that
was built with `Graph.addNode` and `Graph.link` is well-formed: the id of a node is its index, and
links lead to nodes.

## What is here

* `Graph.Built`: a graph is built from the empty one. `Graph.WellFormed`: what that keeps.
* `Graph.Built.wellFormed`: every graph that is built is well-formed.
* `compile_built`: so is every graph that is compiled, since drawing is adding nodes and links.
-/

set_option autoImplicit false

namespace ChainDiagram

namespace Graph

/-- A graph is built from the empty graph, by adding nodes and by adding links. A link that has an
end that is no node is not added. -/
inductive Built : Graph → Prop
  | empty : Built .empty
  | addNode {g : Graph} (h : Built g) (varname value : String) (enclosure : Enclosure) :
    Built (g.addNode varname value enclosure)
  | link {g : Graph} (h : Built g) (source destination : Nat) : Built (g.link source destination)

/-- The nodes of a graph carry their indices as ids, and links lead to nodes. -/
structure WellFormed (g : Graph) : Prop where
  id : ∀ index node, g.node? index = some node → node.id = index
  adjacents : ∀ index node, g.node? index = some node → ∀ a ∈ node.adjacents, a < g.size

theorem mem_nodes_iff {g : Graph} {node : Node} :
    node ∈ g.nodes.toList ↔ ∃ index, g.node? index = some node := by
  simp only [List.mem_iff_getElem?, node?, Array.getElem?_toList]

/-! ## Adding a node -/

theorem node?_addNode (g : Graph) (varname value : String) (enclosure : Enclosure) (index : Nat) :
    (g.addNode varname value enclosure).node? index =
      if index = g.size then some ⟨g.size, varname, value, enclosure, []⟩ else g.node? index :=
  Array.getElem?_push

theorem WellFormed.addNode {g : Graph} (h : g.WellFormed) (varname value : String)
    (enclosure : Enclosure) : (g.addNode varname value enclosure).WellFormed := by
  refine ⟨fun index node hnode => ?_, fun index node hnode a ha => ?_⟩
  · rw [node?_addNode] at hnode
    split at hnode
    · rename_i hindex
      rw [← Option.some.inj hnode, hindex]
    · exact h.id index node hnode
  · rw [node?_addNode] at hnode
    rw [size_addNode]
    split at hnode
    · rw [← Option.some.inj hnode] at ha
      cases ha
    · exact Nat.lt_succ_of_lt (h.adjacents index node hnode a ha)

/-! ## Adding a link -/

/-- A link is appended to the links of its source, or it is not added at all. -/
theorem link_eq (g : Graph) (source destination : Nat) :
    g.link source destination =
      if source < g.size ∧ destination < g.size then
        ⟨g.nodes.modify source fun node =>
          { node with adjacents := node.adjacents ++ [destination] }⟩
      else g := by
  rw [link, link?]
  split <;> rfl

@[simp] theorem size_link (g : Graph) (source destination : Nat) :
    (g.link source destination).size = g.size := by
  rw [link_eq]
  split
  · exact Array.size_modify
  · rfl

/-- A node of the graph with one link more has the same id as before, and at most that link more. -/
theorem exists_node?_of_link {g : Graph} {source destination index : Nat} {node : Node}
    (h : (g.link source destination).node? index = some node) :
    ∃ old, g.node? index = some old ∧ node.id = old.id ∧
      ∀ a ∈ node.adjacents, a ∈ old.adjacents ∨ a < g.size := by
  rw [link_eq] at h
  split at h
  · rename_i hends
    rw [node?, Array.getElem?_modify] at h
    split at h
    · obtain ⟨old, hold, rfl⟩ := Option.map_eq_some_iff.1 h
      refine ⟨old, hold, rfl, fun a ha => ?_⟩
      rcases List.mem_append.1 ha with ha | ha
      · exact .inl ha
      · exact .inr (List.mem_singleton.1 ha ▸ hends.2)
    · exact ⟨node, h, rfl, fun a ha => .inl ha⟩
  · exact ⟨node, h, rfl, fun a ha => .inl ha⟩

theorem WellFormed.link {g : Graph} (h : g.WellFormed) (source destination : Nat) :
    (g.link source destination).WellFormed := by
  refine ⟨fun index node hnode => ?_, fun index node hnode a ha => ?_⟩
  · obtain ⟨old, hold, hid, -⟩ := exists_node?_of_link hnode
    rw [hid, h.id index old hold]
  · obtain ⟨old, hold, -, hadjacents⟩ := exists_node?_of_link hnode
    rw [size_link]
    exact (hadjacents a ha).elim (h.adjacents index old hold a) fun hlt => hlt

/-- **Every graph that is built is well-formed.** -/
theorem Built.wellFormed {g : Graph} (h : g.Built) : g.WellFormed := by
  induction h with
  | empty => exact ⟨fun index node hnode => by simp [node?, Graph.empty] at hnode,
      fun index node hnode => by simp [node?, Graph.empty] at hnode⟩
  | addNode h varname value enclosure ih => exact ih.addNode varname value enclosure
  | link h source destination ih => exact ih.link source destination

end Graph

/-! ## What is drawn -/

/-- What every step keeps, the whole loop keeps. -/
theorem foldlM_preserves {α σ ε : Type} {P : σ → Prop} {step : σ → α → Except ε σ}
    (hstep : ∀ s a s', P s → step s a = .ok s' → P s') {l : List α} {s s' : σ} (hs : P s)
    (h : l.foldlM step s = .ok s') : P s' := by
  induction l generalizing s with
  | nil => exact Except.ok.inj h ▸ hs
  | cons a l ih =>
    rw [List.foldlM_cons] at h
    obtain ⟨middle, hmiddle, h⟩ := bind_eq_ok_iff.1 h
    exact ih (hstep s a middle hs hmiddle) h

namespace Draft

variable {bindings : Bindings} {g g' : Graph}

theorem place_built {key : NodeKey} {line id : Nat} (h : g.Built)
    (hplace : place bindings g key line = .ok (g', id)) : g'.Built := by
  rw [place] at hplace
  split at hplace
  · cases hplace
    exact h
  · split at hplace
    · cases hplace
      exact h.addNode _ _ _
    · cases hplace

theorem placeLink_built {source : Nat} {destination : NodeKey × Nat} (h : g.Built)
    (hplace : placeLink bindings source g destination = .ok g') : g'.Built := by
  obtain ⟨⟨middle, id⟩, hmiddle, hlink⟩ := bind_eq_ok_iff.1 hplace
  cases hlink
  exact (place_built h hmiddle).link source id

theorem placeRow_built {row : LinkRow} (h : g.Built)
    (hplace : placeRow bindings g row = .ok g') : g'.Built := by
  obtain ⟨⟨middle, source⟩, hmiddle, hlinks⟩ := bind_eq_ok_iff.1 hplace
  exact foldlM_preserves (fun _ _ _ => placeLink_built) (place_built h hmiddle) hlinks

theorem graph_built {d : Draft} (h : d.graph = .ok g) : g.Built := by
  rw [graph] at h
  split at h
  · cases h
  · exact foldlM_preserves (fun _ _ _ => placeRow_built) .empty h

end Draft

/-- **A graph that is compiled is built from the empty one.** -/
theorem compile_built {source : String} {g : Graph} (h : compile source = .ok g) : g.Built := by
  obtain ⟨d, -, hd⟩ := bind_eq_ok_iff.1 h
  exact Draft.graph_built hd

end ChainDiagram
