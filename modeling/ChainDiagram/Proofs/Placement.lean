import Mathlib.Data.List.Perm.Subperm
import ChainDiagram.Layout
import ChainDiagram.Proofs.LinkTable
import ChainDiagram.Proofs.SearchCost
import ChainDiagram.Proofs.WellFormed

/-!
# Every node has its place

A diagram is drawn as a column that holds every node once: the longest chain from node 0 first, and
then what a walk through the graph meets. That nothing is left out and nothing comes twice needs a
graph whose ids and links can be trusted (`Graph.WellFormed`).

## What is here

* `Graph.chainFrom_eq_append`: the longest chain repeats nothing but its start, and the start
  exactly if it has a link to itself.
* `Graph.nodup_order`, `Graph.mem_order_iff`: what is placed, in any graph.
* `Graph.WellFormed.order_perm_range`: the column of a well-formed graph holds every node once.
* `Graph.exists_layout?_of_walk`, `Graph.WellFormed.exists_layout?`: a graph whose links lead to
  nodes has a layout, and that of a well-formed graph shows all of it.
* `layout_places_every_node`: what the layout of a graph looks like that has been built.
-/

set_option autoImplicit false

namespace ChainDiagram

namespace Graph

variable {g : Graph}

/-! ## The chain at the top -/

/-- **The start of a longest chain comes again exactly if it has a link to itself**: to follow that
link first makes any other chain longer by one. -/
theorem Optimal.mem_tail_iff {start : Nat} {tail : List Nat} (h : g.Optimal [] start tail) :
    start ∈ tail ↔ g.LeadsTo start start := by
  constructor
  · intro hmem
    have hno_return := h.admissible.no_return
    cases tail with
    | nil => cases hmem
    | cons a tail =>
      obtain rfl : start = a := (List.mem_cons.1 hmem).resolve_right hno_return
      exact (List.isChain_cons_cons.1 h.admissible.links).1
  · intro hloop
    by_contra hmem
    have hstart : start < g.size := (List.forall_mem_cons.1 h.admissible.known).1
    have hfresh : ∀ i ∈ tail, i ∉ [start, start] := fun i hi heq => by
      simp only [List.mem_cons, List.not_mem_nil, or_false, or_self] at heq
      exact hmem (heq ▸ hi)
    have hlonger : g.Admissible [] start (start :: tail) := admissible_cons_iff.2
      ⟨hstart, hloop, List.not_mem_nil, { h.admissible with fresh := hfresh }⟩
    have hlength := h.length_le _ hlonger
    rw [List.length_cons] at hlength
    omega

/-- **The longest chain from a node** goes through nodes of the graph and repeats none of them, but
if the node has a link to itself, that comes first. -/
theorem chainFrom_eq_append {start : Nat} (h : start < g.size) :
    ∃ tail, (start :: tail).Nodup ∧ (∀ i ∈ start :: tail, i < g.size) ∧
      (g.LeadsTo start start → g.chainFrom start = start :: start :: tail) ∧
      (¬g.LeadsTo start start → g.chainFrom start = start :: tail) := by
  obtain ⟨tail, hchain, hoptimal⟩ := longestChain_eq_cons [] h
  have hadmissible := hoptimal.admissible
  by_cases hloop : g.LeadsTo start start
  · have hmem := hoptimal.mem_tail_iff.2 hloop
    cases tail with
    | nil => cases hmem
    | cons a tail =>
      obtain rfl : start = a := (List.mem_cons.1 hmem).resolve_right hadmissible.no_return
      exact ⟨tail, hadmissible.nodup, (List.forall_mem_cons.1 hadmissible.known).2,
        fun _ => hchain, fun hnot => absurd hloop hnot⟩
  · have hnot : start ∉ tail := fun hmem => hloop (hoptimal.mem_tail_iff.1 hmem)
    exact ⟨tail, List.nodup_cons.2 ⟨hnot, hadmissible.nodup⟩, hadmissible.known,
      fun hyes => absurd hyes hloop, fun _ => hchain⟩

/-- The longest chain from a node goes through nodes, and from anywhere else there is none. -/
theorem forall_mem_chainFrom_lt (start : Nat) : ∀ i ∈ g.chainFrom start, i < g.size := by
  rcases Nat.lt_or_ge start g.size with h | h
  · obtain ⟨tail, hchain, hoptimal⟩ := longestChain_eq_cons [] h
    rw [chainFrom, hchain]
    exact hoptimal.admissible.known
  · rw [chainFrom, longestChain_of_le h]
    exact List.forall_mem_nil _

/-- Nodes of a graph without repetitions are no more than the graph has. -/
theorem length_le_of_nodup {nodes : List Nat} (hnodup : nodes.Nodup)
    (hknown : ∀ i ∈ nodes, i < g.size) : nodes.length ≤ g.size := by
  have hsubset : nodes ⊆ List.range g.size := fun i hi => List.mem_range.2 (hknown i hi)
  simpa using (List.subperm_of_subset hnodup hsubset).length_le

/-! ## The column -/

/-- The walk meets the nodes of a well-formed graph and nothing else. -/
theorem WellFormed.mem_walk_iff (h : g.WellFormed) {i : Nat} : i ∈ g.walk ↔ i < g.size := by
  rw [walk, List.mem_flatMap]
  constructor
  · rintro ⟨node, hmem, hi⟩
    obtain ⟨index, hnode⟩ := mem_nodes_iff.1 hmem
    rcases List.mem_cons.1 hi with rfl | hi
    · rw [h.id index node hnode]
      exact node?_isSome_iff.1 (Option.isSome_of_eq_some hnode)
    · exact h.adjacents index node hnode i hi
  · intro hi
    obtain ⟨node, hnode⟩ := Option.isSome_iff_exists.1 (node?_isSome_iff.2 hi)
    refine ⟨node, mem_nodes_iff.2 ⟨i, hnode⟩, ?_⟩
    rw [h.id i node hnode]
    exact List.mem_cons_self

/-- The search for the chain either finds the longest one or is given up. -/
theorem placement_cases (hsize : 0 < g.size) (limit : Nat) :
    (g.chainWithin? 0 limit = some (g.chainFrom 0) ∧ g.placement limit =
        ⟨(g.chainFrom 0 ++ g.walk).eraseDups, (g.chainFrom 0).length, false⟩) ∨
      (g.chainWithin? 0 limit = none ∧ g.placement limit = ⟨g.walk.eraseDups, 0, true⟩) := by
  have hchain := g.chainWithin?_eq 0 limit
  rw [placement, if_neg (Nat.ne_of_gt hsize)]
  split at hchain
  · exact .inr ⟨hchain, by rw [hchain]⟩
  · exact .inl ⟨hchain, by rw [hchain]⟩

/-- **Nothing is placed twice.** -/
theorem nodup_order (g : Graph) (limit : Nat) : (g.placement limit).order.Nodup := by
  rcases Nat.eq_zero_or_pos g.size with hsize | hsize
  · rw [placement, if_pos hsize]
    exact List.nodup_nil
  · rcases placement_cases hsize limit with ⟨-, hplacement⟩ | ⟨-, hplacement⟩
    · rw [hplacement]
      exact nodup_eraseDups _
    · rw [hplacement]
      exact nodup_eraseDups _

/-- **What is placed stands on the chain, if that is found, or is met by the walk.** -/
theorem mem_order_iff (g : Graph) (limit : Nat) {i : Nat} :
    i ∈ (g.placement limit).order ↔
      ((g.chainWithin? 0 limit).isSome ∧ i ∈ g.chainFrom 0) ∨ i ∈ g.walk := by
  rcases Nat.eq_zero_or_pos g.size with hsize | hsize
  · have hwalk : g.walk = [] := by
      rw [walk, Array.eq_empty_of_size_eq_zero hsize]
      rfl
    have hchain : g.chainFrom 0 = [] := longestChain_of_le (Nat.le_of_eq hsize) []
    simp [placement, hsize, hwalk, hchain]
  · rcases placement_cases hsize limit with ⟨hchain, hplacement⟩ | ⟨hchain, hplacement⟩
    · rw [hplacement, hchain, List.mem_eraseDups, List.mem_append]
      simp
    · rw [hplacement, hchain, List.mem_eraseDups]
      simp

/-- **Every node of a well-formed graph is placed once.** -/
theorem WellFormed.order_perm_range (h : g.WellFormed) (limit : Nat) :
    (g.placement limit).order.Perm (List.range g.size) := by
  rw [List.perm_ext_iff_of_nodup (g.nodup_order limit) List.nodup_range]
  intro i
  rw [mem_order_iff, h.mem_walk_iff, List.mem_range, or_iff_right_of_imp]
  exact fun hi => forall_mem_chainFrom_lt 0 i hi.2

/-- **How the column of a graph with nodes begins**, where the search for the chain may take so many
steps. -/
structure Column (g : Graph) (limit : Nat) (placement : Placement) : Prop where
  /-- The search is given up exactly if the steps do not suffice. -/
  skipped_iff : placement.chainSkipped = false ↔ (g.chainWithin? 0 limit).isSome
  /-- If it is not, the chain comes first, but a second node 0 in it is left out; then comes what
  else the walk meets, in the order in which it is met first. -/
  found : placement.chainSkipped = false → placement.chainLength = (g.chainFrom 0).length ∧
    ∃ tail, (0 :: tail).Nodup ∧
      (g.LeadsTo 0 0 → g.chainFrom 0 = 0 :: 0 :: tail) ∧
      (¬g.LeadsTo 0 0 → g.chainFrom 0 = 0 :: tail) ∧
      placement.order = 0 :: tail ++ (g.walk.filter (· ∉ 0 :: tail)).eraseDups
  /-- If it is, the walk alone decides. -/
  skipped : placement.chainSkipped = true →
    placement.chainLength = 0 ∧ placement.order = g.walk.eraseDups
  /-- The chain goes through no node twice, but a link of node 0 to itself makes it longer by
  one. -/
  length_le : ¬g.LeadsTo 0 0 → placement.chainLength ≤ g.size
  length_le_succ : g.LeadsTo 0 0 → placement.chainLength ≤ g.size + 1

/-- What comes twice in a row counts once. -/
theorem eraseDups_cons_cons (i : Nat) (l : List Nat) :
    (i :: i :: l).eraseDups = (i :: l).eraseDups := by
  simp [List.eraseDups_cons]

/-- The chain is placed without its second node 0, if it has one. -/
theorem eraseDups_chainFrom_append {tail : List Nat} (hnodup : (0 :: tail).Nodup)
    (hloop : g.LeadsTo 0 0 → g.chainFrom 0 = 0 :: 0 :: tail)
    (hno_loop : ¬g.LeadsTo 0 0 → g.chainFrom 0 = 0 :: tail) (l : List Nat) :
    (g.chainFrom 0 ++ l).eraseDups = 0 :: tail ++ (l.filter (· ∉ 0 :: tail)).eraseDups := by
  have honce : (g.chainFrom 0 ++ l).eraseDups = (0 :: tail ++ l).eraseDups := by
    by_cases h : g.LeadsTo 0 0
    · rw [hloop h, List.cons_append, List.cons_append, eraseDups_cons_cons]
    · rw [hno_loop h]
  rw [honce, eraseDups_append_eq_filter, eraseDups_of_nodup hnodup]

theorem column_placement (hsize : 0 < g.size) (limit : Nat) :
    g.Column limit (g.placement limit) := by
  obtain ⟨tail, hnodup, hknown, hloop, hno_loop⟩ := chainFrom_eq_append hsize
  have hlength := length_le_of_nodup hnodup hknown
  rcases placement_cases hsize limit with ⟨hchain, hplacement⟩ | ⟨hchain, hplacement⟩
  · rw [hplacement]
    refine ⟨by simp [hchain], fun _ => ⟨rfl, tail, hnodup, hloop, hno_loop, ?_⟩, nofun,
      fun h => ?_, fun h => ?_⟩
    · exact eraseDups_chainFrom_append hnodup hloop hno_loop g.walk
    · rwa [hno_loop h]
    · rw [hloop h, List.length_cons]
      exact Nat.succ_le_succ hlength
  · rw [hplacement]
    exact ⟨by simp [hchain], nofun, fun _ => ⟨rfl, rfl⟩, fun _ => Nat.zero_le _,
      fun _ => Nat.zero_le _⟩

end Graph

/-! ## The layout -/

/-- **A layout shows all of a graph**: each node has a box under its index and a place in the
column, and each link has a line. -/
structure Layout.Shows (layout : Layout) (g : Graph) : Prop where
  /-- The column holds every node once. -/
  order_perm : layout.placement.order.Perm (List.range g.size)
  length_nodes : layout.nodes.length = g.size
  /-- The row of a box is the place of its node in the column. -/
  node : ∀ i < g.size, ∃ box, layout.nodes[i]? = some box ∧ box.id = i ∧
    layout.placement.order[box.order]? = some i
  /-- The lines are those of the links, in their order. -/
  edges : layout.edges.map (fun edge => (edge.source, edge.destination)) = g.edges

/-- A link between boxes that are there gets its line. -/
theorem EdgeLine.exists_between? {boxes : List NodeBox} {edge : Nat × Nat}
    (hsource : edge.1 < boxes.length) (hdestination : edge.2 < boxes.length) :
    ∃ line, EdgeLine.between? boxes edge = some line ∧ (line.source, line.destination) = edge := by
  rw [between?, List.getElem?_eq_getElem hsource, List.getElem?_eq_getElem hdestination]
  exact ⟨_, rfl, rfl⟩

theorem EdgeLine.exists_mapM_between? {boxes : List NodeBox} {edges : List (Nat × Nat)}
    (h : ∀ edge ∈ edges, edge.1 < boxes.length ∧ edge.2 < boxes.length) :
    ∃ lines, edges.mapM (EdgeLine.between? boxes) = some lines ∧
      lines.map (fun line => (line.source, line.destination)) = edges := by
  induction edges with
  | nil => exact ⟨[], rfl, rfl⟩
  | cons edge edges ih =>
    obtain ⟨⟨hsource, hdestination⟩, hedges⟩ := List.forall_mem_cons.1 h
    obtain ⟨line, hline, hends⟩ := EdgeLine.exists_between? hsource hdestination
    obtain ⟨lines, hlines, heq⟩ := ih hedges
    refine ⟨line :: lines, ?_, ?_⟩
    · rw [List.mapM_cons, hline, hlines]
      rfl
    · rw [List.map_cons, hends, heq]

/-- The links of a graph join what the walk meets. -/
theorem Graph.mem_walk_of_mem_edges {g : Graph} {edge : Nat × Nat} (h : edge ∈ g.edges) :
    edge.1 ∈ g.walk ∧ edge.2 ∈ g.walk := by
  obtain ⟨node, hnode, hedge⟩ := List.mem_flatMap.1 h
  obtain ⟨a, ha, rfl⟩ := List.mem_map.1 hedge
  exact ⟨List.mem_flatMap.2 ⟨node, hnode, List.mem_cons_self⟩,
    List.mem_flatMap.2 ⟨node, hnode, List.mem_cons_of_mem _ ha⟩⟩

/-- **There is a layout where the walk meets nodes only**: with a box for each node, and a line for
each link. -/
theorem Graph.exists_layout?_of_walk {g : Graph} (h : ∀ i ∈ g.walk, i < g.size)
    (settings : Settings) :
    ∃ lines, lines.map (fun line => (line.source, line.destination)) = g.edges ∧
      g.layout? settings = some
        ⟨g.nodes.toList.map (Node.box settings (g.placement settings.chainSearchStepLimit).order),
          lines, g.placement settings.chainSearchStepLimit⟩ := by
  generalize hplacement : g.placement settings.chainSearchStepLimit = placement
  have hall : placement.order.all (· < g.size) := by
    refine List.all_eq_true.2 fun i hi => decide_eq_true ?_
    rw [← hplacement, mem_order_iff] at hi
    rcases hi with ⟨-, hchain⟩ | hwalk
    · exact forall_mem_chainFrom_lt 0 i hchain
    · exact h i hwalk
  have hlength : (g.nodes.toList.map (Node.box settings placement.order)).length = g.size := by
    rw [List.length_map, Array.length_toList, Graph.size]
  have hends : ∀ edge ∈ g.edges,
      edge.1 < (g.nodes.toList.map (Node.box settings placement.order)).length ∧
        edge.2 < (g.nodes.toList.map (Node.box settings placement.order)).length := by
    intro edge hedge
    rw [hlength]
    obtain ⟨hsource, hdestination⟩ := Graph.mem_walk_of_mem_edges hedge
    exact ⟨h _ hsource, h _ hdestination⟩
  obtain ⟨lines, hlines, hedges⟩ := EdgeLine.exists_mapM_between? hends
  refine ⟨lines, hedges, ?_⟩
  simp only [Graph.layout?, hplacement, if_pos hall, hlines, Option.map_some]

/-- **A well-formed graph has a layout, which shows all of it.** -/
theorem Graph.WellFormed.exists_layout? {g : Graph} (h : g.WellFormed) (settings : Settings) :
    ∃ layout, g.layout? settings = some layout ∧ layout.Shows g ∧
      layout.placement = g.placement settings.chainSearchStepLimit := by
  have hperm := h.order_perm_range settings.chainSearchStepLimit
  obtain ⟨lines, hedges, hlayout⟩ :=
    Graph.exists_layout?_of_walk (fun i hi => h.mem_walk_iff.1 hi) settings
  generalize g.placement settings.chainSearchStepLimit = placement at hperm hlayout ⊢
  refine ⟨_, hlayout, ⟨hperm, ?_, fun i hi => ?_, hedges⟩, rfl⟩
  · rw [List.length_map, Array.length_toList, Graph.size]
  · obtain ⟨node, hnode⟩ := Option.isSome_iff_exists.1 (Graph.node?_isSome_iff.2 hi)
    have hid := h.id i node hnode
    refine ⟨node.box settings placement.order, ?_, hid, ?_⟩
    · rw [List.getElem?_map, Array.getElem?_toList, ← Graph.node?, hnode, Option.map_some]
    · show placement.order[placement.order.idxOf node.id]? = some i
      rw [hid]
      exact List.getElem?_idxOf (hperm.mem_iff.2 (List.mem_range.2 hi))

/-- **The layout of a graph places every node once, the longest chain first.** A graph that has been
built has a layout for all settings, with a box for each node and a line for each link; if there are
any nodes, the column begins with the longest chain from node 0, unless the search for it takes too
long. Every graph that is compiled has been built. -/
theorem layout_places_every_node :
    (∀ g : Graph, g.Built → ∀ settings : Settings, ∃ layout, g.layout? settings = some layout ∧
      layout.Shows g ∧
        (0 < g.size → g.Column settings.chainSearchStepLimit layout.placement)) ∧
    ∀ source g, compile source = .ok g → g.Built := by
  refine ⟨fun g hg settings => ?_, fun source g h => compile_built h⟩
  obtain ⟨layout, hlayout, hshows, hplacement⟩ := hg.wellFormed.exists_layout? settings
  refine ⟨layout, hlayout, hshows, fun hsize => ?_⟩
  rw [hplacement]
  exact Graph.column_placement hsize _

/-- A graph whose first node has a link to itself. The longest chain from there does not take the
link that the walk takes first. -/
def Graph.looped : Graph :=
  let nodes := ((Graph.empty.addNode "a" "A" .rectangle).addNode "b" "B" .other).addNode "c" "C"
    .parallelogram
  (((nodes.link 0 0).link 0 1).link 0 2).link 2 1

/-- With eight steps, the chain is found. -/
theorem layout_places_every_node_looped :
    Graph.looped.Built ∧ 0 < Graph.looped.size ∧ Graph.looped.chainFrom 0 = [0, 0, 2, 1] ∧
      ∃ layout, Graph.looped.layout? { chainSearchStepLimit := 8 } = some layout ∧
        layout.Shows Graph.looped ∧ Graph.looped.Column 8 layout.placement := by
  have hbuilt : Graph.looped.Built := by
    refine ((((Graph.Built.addNode ?_ "c" "C" .parallelogram).link 0 0).link 0 1).link 0 2).link 2 1
    exact (Graph.Built.empty.addNode "a" "A" .rectangle).addNode "b" "B" .other
  have hsize : 0 < Graph.looped.size := by decide
  obtain ⟨layout, hlayout, hshows, hcolumn⟩ :=
    layout_places_every_node.1 Graph.looped hbuilt { chainSearchStepLimit := 8 }
  exact ⟨hbuilt, hsize, by cbv, layout, hlayout, hshows, hcolumn hsize⟩

/-- With four steps the chain through all nodes is found. One step less, and the walk decides. -/
example :
    let g : Graph := ⟨#[⟨0, "a", "A", .rectangle, [1, 2]⟩, ⟨1, "b", "B", .other, []⟩,
      ⟨2, "c", "C", .parallelogram, [1]⟩]⟩
    g.placement 4 = ⟨[0, 2, 1], 3, false⟩ ∧ g.placement 3 = ⟨[0, 1, 2], 0, true⟩ := by cbv

end ChainDiagram
