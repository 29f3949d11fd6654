import Mathlib.Data.List.Basic
import Mathlib.Data.List.Infix
import ChainDiagram.Proofs.LinkTable

/-!
# How a graph is drawn

`Draft.graph` walks along the rows of a link table: it looks up each source and each destination,
adds a node where there is none, and links the two. What it has drawn at any moment depends only on
the keys that it has met (`walk`) and on the links that it has made (`arcs`), and `drawn` is that
graph, said at once.

## What is here

* `drawn`: a node for each key of the walk, in the order of first occurrences, linked as the arcs
  say.
* `Draft.place_drawn`, `Draft.placeLink_drawn`, `Draft.placeRow_drawn`: a step of the drawing is one
  key more, or one arc more.
* `Draft.foldlM_placeRow_ofMentions`: the whole of the drawing. It succeeds if every key is bound.
-/

set_option autoImplicit false

namespace ChainDiagram

/-- The ids of the nodes that the arcs from a key lead to, in the order of the arcs. -/
def targets (walk : List NodeKey) (arcs : List (NodeKey × NodeKey)) (key : NodeKey) : List Nat :=
  (arcs.filter (·.1 = key)).map fun arc => walk.eraseDups.idxOf arc.2

/-- The node of a key. -/
def drawnNode (value : NodeKey → String) (walk : List NodeKey) (arcs : List (NodeKey × NodeKey))
    (id : Nat) (key : NodeKey) : Node :=
  ⟨id, key.name, value key, key.enclosure, targets walk arcs key⟩

/-- The graph that has been drawn after a walk, with some arcs. -/
def drawn (value : NodeKey → String) (walk : List NodeKey) (arcs : List (NodeKey × NodeKey)) :
    Graph :=
  ⟨(walk.eraseDups.mapIdx (drawnNode value walk arcs)).toArray⟩

section Drawn

variable {value : NodeKey → String} {walk : List NodeKey} {arcs : List (NodeKey × NodeKey)}

/-- The arcs run between keys of the walk. -/
def ArcsWithin (walk : List NodeKey) (arcs : List (NodeKey × NodeKey)) : Prop :=
  ∀ arc ∈ arcs, arc.1 ∈ walk ∧ arc.2 ∈ walk

theorem ArcsWithin.append_right (h : ArcsWithin walk arcs) (keys : List NodeKey) :
    ArcsWithin (walk ++ keys) arcs :=
  fun arc harc => (h arc harc).imp (List.mem_append_left keys) (List.mem_append_left keys)

theorem ArcsWithin.concat (h : ArcsWithin walk arcs) {source destination : NodeKey}
    (hsource : source ∈ walk) (hdestination : destination ∈ walk) :
    ArcsWithin walk (arcs ++ [(source, destination)]) := by
  intro arc harc
  rcases List.mem_append.1 harc with harc | harc
  · exact h arc harc
  · rw [List.mem_singleton.1 harc]
    exact ⟨hsource, hdestination⟩

theorem size_drawn : (drawn value walk arcs).size = walk.eraseDups.length := by
  rw [drawn, Graph.size, List.size_toArray, List.length_mapIdx]

/-! ## Looking up a key -/

theorem find?_mapIdx {α β : Type} [DecidableEq α] {l : List α} {f : Nat → α → β} {p : β → Bool}
    {a : α} (hp : ∀ i b, p (f i b) = decide (b = a)) :
    (l.mapIdx f).find? p = if a ∈ l then some (f (l.idxOf a) a) else none := by
  induction l generalizing f with
  | nil => rfl
  | cons b l ih =>
    rw [List.mapIdx_cons, List.find?_cons, hp, ih (fun i b => hp (i + 1) b)]
    by_cases hb : b = a
    · subst hb
      simp
    · simp [hb, Ne.symm hb, List.idxOf_cons_ne]

/-- A key has a node as soon as the walk has met it. -/
theorem nodeNamed?_drawn (key : NodeKey) :
    (drawn value walk arcs).nodeNamed? key.name key.enclosure =
      if key ∈ walk then some (drawnNode value walk arcs (walk.eraseDups.idxOf key) key)
      else none := by
  rw [drawn, Graph.nodeNamed?, List.find?_toArray, find?_mapIdx (a := key)]
  · simp only [List.mem_eraseDups]
  · intro i other
    obtain ⟨enclosure, name⟩ := key
    obtain ⟨enclosure', name'⟩ := other
    refine decide_eq_decide.2 ?_
    rw [drawnNode, NodeKey.mk.injEq, and_comm]

/-! ## Adding a node -/

/-- Later keys do not change where an arc leads. -/
theorem targets_append (h : ArcsWithin walk arcs) (keys : List NodeKey) (key : NodeKey) :
    targets (walk ++ keys) arcs key = targets walk arcs key := by
  refine List.map_congr_left fun arc harc => ?_
  have hmem := (h arc (List.mem_filter.1 harc).1).2
  rw [List.eraseDups_append, List.idxOf_append_of_mem (List.mem_eraseDups.2 hmem)]

/-- No arc leaves a key that has not been met. -/
theorem targets_eq_nil (h : ArcsWithin walk arcs) {key : NodeKey} (hkey : key ∉ walk) :
    targets walk arcs key = [] := by
  rw [targets, List.map_eq_nil_iff, List.filter_eq_nil_iff]
  intro arc harc heq
  exact hkey (of_decide_eq_true heq ▸ (h arc harc).1)

/-- A key that has not been met gets the next node. -/
theorem addNode_drawn (h : ArcsWithin walk arcs) {key : NodeKey} (hkey : key ∉ walk) :
    (drawn value walk arcs).addNode key.name (value key) key.enclosure =
      drawn value (walk ++ [key]) arcs := by
  have hold : ∀ i (hi : i < walk.eraseDups.length),
      drawnNode value (walk ++ [key]) arcs i walk.eraseDups[i] =
        drawnNode value walk arcs i walk.eraseDups[i] := by
    intro i hi
    rw [drawnNode, targets_append h]
    rfl
  rw [Graph.addNode, size_drawn, drawn, drawn, List.push_toArray, eraseDups_concat, if_neg hkey,
    List.mapIdx_concat, List.mapIdx_eq_mapIdx_iff.2 hold, drawnNode, targets_append h,
    targets_eq_nil h hkey]

/-- A key that has been met again changes nothing. -/
theorem drawn_concat_of_mem (h : ArcsWithin walk arcs) {key : NodeKey} (hkey : key ∈ walk) :
    drawn value (walk ++ [key]) arcs = drawn value walk arcs := by
  have hnode : drawnNode value (walk ++ [key]) arcs = drawnNode value walk arcs := by
    funext id other
    rw [drawnNode, targets_append h]
    rfl
  rw [drawn, hnode, eraseDups_concat, if_pos hkey, drawn]

/-! ## Adding a link -/

theorem targets_concat (source destination key : NodeKey) :
    targets walk (arcs ++ [(source, destination)]) key =
      if source = key then targets walk arcs key ++ [walk.eraseDups.idxOf destination]
      else targets walk arcs key := by
  rw [targets, List.filter_append, List.map_append]
  by_cases h : source = key <;> simp [h, targets]

/-- A link between two keys that have been met is one arc more. -/
theorem link_drawn {source destination : NodeKey} (hsource : source ∈ walk)
    (hdestination : destination ∈ walk) :
    (drawn value walk arcs).link (walk.eraseDups.idxOf source)
        (walk.eraseDups.idxOf destination) =
      drawn value walk (arcs ++ [(source, destination)]) := by
  have hids : walk.eraseDups.idxOf source < walk.eraseDups.length ∧
      walk.eraseDups.idxOf destination < walk.eraseDups.length :=
    ⟨List.idxOf_lt_length_of_mem (List.mem_eraseDups.2 hsource),
      List.idxOf_lt_length_of_mem (List.mem_eraseDups.2 hdestination)⟩
  rw [Graph.link, Graph.link?, size_drawn, if_pos hids, Option.getD_some, drawn, drawn,
    List.modify_toArray]
  refine congrArg (fun nodes => Graph.mk (List.toArray nodes)) ?_
  refine List.ext_getElem (by simp) fun i hi hi' => ?_
  have hlt : i < walk.eraseDups.length := by simpa using hi'
  rw [List.getElem_modify, List.getElem_mapIdx, List.getElem_mapIdx, drawnNode, drawnNode,
    targets_concat]
  by_cases h : walk.eraseDups.idxOf source = i
  · subst h
    rw [if_pos rfl, List.getElem_idxOf, if_pos rfl]
  · have hne : source ≠ walk.eraseDups[i] := fun heq =>
      h (heq ▸ (nodup_eraseDups walk).idxOf_getElem i hlt)
    rw [if_neg h, if_neg hne]

end Drawn

namespace Draft

variable {bindings : Bindings} {walk : List NodeKey} {arcs : List (NodeKey × NodeKey)}

/-- What the bindings say that the node of a key shows. -/
def shown (bindings : Bindings) (key : NodeKey) : String := (bindings.value? key.name).getD ""

/-- The key has a name that is bound. -/
def Bound (bindings : Bindings) (key : NodeKey) : Prop := (bindings.value? key.name).isSome

/-- **A bound key is one key more of the walk**, and it is found where its node has been put. -/
theorem place_drawn (h : ArcsWithin walk arcs) {key : NodeKey} (hbound : Bound bindings key)
    (line : Nat) :
    place bindings (drawn (shown bindings) walk arcs) key line =
      .ok (drawn (shown bindings) (walk ++ [key]) arcs, (walk ++ [key]).eraseDups.idxOf key) := by
  rw [place, nodeNamed?_drawn, eraseDups_concat]
  by_cases hkey : key ∈ walk
  · rw [if_pos hkey, if_pos hkey, drawn_concat_of_mem h hkey]
    rfl
  · obtain ⟨value, hvalue⟩ := Option.isSome_iff_exists.1 hbound
    have hshown : shown bindings key = value := by rw [shown, hvalue, Option.getD_some]
    have hnot : key ∉ walk.eraseDups := fun hmem => hkey (List.mem_eraseDups.1 hmem)
    rw [if_neg hkey, if_neg hkey, hvalue, List.idxOf_append_of_notMem hnot, List.idxOf_cons_self,
      Nat.add_zero]
    show Except.ok _ = _
    rw [← hshown, addNode_drawn h hkey, size_drawn]

/-- A bound destination is one key and one arc more. -/
theorem placeLink_drawn (h : ArcsWithin walk arcs) {source : NodeKey} (hsource : source ∈ walk)
    {destination : NodeKey × Nat} (hbound : Bound bindings destination.1) :
    placeLink bindings (walk.eraseDups.idxOf source) (drawn (shown bindings) walk arcs)
        destination =
      .ok (drawn (shown bindings) (walk ++ [destination.1])
        (arcs ++ [(source, destination.1)])) := by
  have hidx : walk.eraseDups.idxOf source = (walk ++ [destination.1]).eraseDups.idxOf source := by
    rw [List.eraseDups_append, List.idxOf_append_of_mem (List.mem_eraseDups.2 hsource)]
  rw [placeLink, place_drawn h hbound, hidx]
  show Except.ok _ = _
  rw [link_drawn (List.mem_append_left _ hsource) (List.mem_append_right _ List.mem_cons_self)]

/-- The keys that a row leads the walk along. -/
def rowWalk (row : LinkRow) : List NodeKey := row.source :: row.destinations.map Prod.fst

/-- The arcs that a row makes. -/
def rowArcs (row : LinkRow) : List (NodeKey × NodeKey) :=
  row.destinations.map fun destination => (row.source, destination.1)

/-- All destinations of a source. -/
theorem foldlM_placeLink_drawn {source : NodeKey} {destinations : List (NodeKey × Nat)}
    (h : ArcsWithin walk arcs) (hsource : source ∈ walk)
    (hbound : ∀ destination ∈ destinations, Bound bindings destination.1) :
    destinations.foldlM (placeLink bindings (walk.eraseDups.idxOf source))
        (drawn (shown bindings) walk arcs) =
      .ok (drawn (shown bindings) (walk ++ destinations.map Prod.fst)
        (arcs ++ destinations.map fun destination => (source, destination.1))) := by
  induction destinations generalizing walk arcs with
  | nil => simp [pure, Except.pure]
  | cons destination destinations ih =>
    obtain ⟨hfirst, hrest⟩ := List.forall_mem_cons.1 hbound
    have hsource' : source ∈ walk ++ [destination.1] := List.mem_append_left _ hsource
    have hwithin : ArcsWithin (walk ++ [destination.1]) (arcs ++ [(source, destination.1)]) :=
      (h.append_right _).concat hsource' (List.mem_append_right _ List.mem_cons_self)
    have hidx : walk.eraseDups.idxOf source =
        (walk ++ [destination.1]).eraseDups.idxOf source := by
      rw [List.eraseDups_append, List.idxOf_append_of_mem (List.mem_eraseDups.2 hsource)]
    rw [List.foldlM_cons, placeLink_drawn h hsource hfirst]
    show destinations.foldlM (placeLink bindings (walk.eraseDups.idxOf source)) _ = _
    rw [hidx, ih hwithin hsource' hrest, List.append_assoc, List.append_assoc]
    rfl

theorem placeRow_drawn (h : ArcsWithin walk arcs) {row : LinkRow}
    (hbound : ∀ key ∈ rowWalk row, Bound bindings key) :
    placeRow bindings (drawn (shown bindings) walk arcs) row =
      .ok (drawn (shown bindings) (walk ++ rowWalk row) (arcs ++ rowArcs row)) := by
  obtain ⟨hsource, hdestinations⟩ := List.forall_mem_cons.1 hbound
  rw [placeRow, place_drawn h hsource]
  show row.destinations.foldlM _ _ = _
  rw [foldlM_placeLink_drawn (h.append_right _) (List.mem_append_right _ List.mem_cons_self)
    (List.forall_mem_map.1 hdestinations), List.append_assoc]
  rfl

theorem ArcsWithin.row (h : ArcsWithin walk arcs) (row : LinkRow) :
    ArcsWithin (walk ++ rowWalk row) (arcs ++ rowArcs row) := by
  intro arc harc
  rcases List.mem_append.1 harc with harc | harc
  · exact h.append_right _ arc harc
  · obtain ⟨destination, hmem, rfl⟩ := List.mem_map.1 harc
    exact ⟨List.mem_append_right _ List.mem_cons_self, List.mem_append_right _
      (List.mem_cons_of_mem _ (List.mem_map_of_mem hmem))⟩

/-- **The drawing succeeds if every key is bound**, and its walk and its arcs are those of the rows,
one after the other. -/
theorem foldlM_placeRow_drawn (h : ArcsWithin walk arcs) {rows : List LinkRow}
    (hbound : ∀ row ∈ rows, ∀ key ∈ rowWalk row, Bound bindings key) :
    rows.foldlM (placeRow bindings) (drawn (shown bindings) walk arcs) =
      .ok (drawn (shown bindings) (walk ++ rows.flatMap rowWalk)
        (arcs ++ rows.flatMap rowArcs)) := by
  induction rows generalizing walk arcs with
  | nil => simp [pure, Except.pure]
  | cons row rows ih =>
    obtain ⟨hrow, hrows⟩ := List.forall_mem_cons.1 hbound
    rw [List.foldlM_cons, placeRow_drawn h hrow]
    show rows.foldlM (placeRow bindings) _ = _
    rw [ih (ArcsWithin.row h row) hrows, List.flatMap_cons, List.flatMap_cons, List.append_assoc,
      List.append_assoc]

/-- The rows of the table lead along the walk. -/
theorem flatMap_rowWalk_ofMentions (mentions : List Mention) :
    (LinkTable.ofMentions mentions).rows.flatMap rowWalk = walkOf mentions := by
  rw [LinkTable.rows_ofMentions, List.flatMap_map]
  rfl

/-- What stands in a row is met on the walk. -/
theorem mem_walkOf_of_mem_row {mentions : List Mention} {row : LinkRow} {key : NodeKey}
    (hrow : row ∈ (LinkTable.ofMentions mentions).rows) (hkey : key ∈ rowWalk row) :
    key ∈ walkOf mentions :=
  flatMap_rowWalk_ofMentions mentions ▸ List.mem_flatMap_of_mem hrow hkey

/-- **What is mentioned is drawn**, along the walk and with the arcs of the mentions. -/
theorem foldlM_placeRow_ofMentions {mentions : List Mention}
    (hbound : ∀ key ∈ walkOf mentions, Bound bindings key) :
    (LinkTable.ofMentions mentions).rows.foldlM (placeRow bindings) .empty =
      .ok (drawn (shown bindings) (walkOf mentions) (arcsOf mentions)) := by
  have harcs : (LinkTable.ofMentions mentions).rows.flatMap rowArcs = arcsOf mentions := by
    rw [LinkTable.rows_ofMentions, List.flatMap_map]
    rfl
  have hrows : ∀ row ∈ (LinkTable.ofMentions mentions).rows, ∀ key ∈ rowWalk row,
      Bound bindings key := fun row hrow key hkey => hbound key (mem_walkOf_of_mem_row hrow hkey)
  have hnone : ArcsWithin [] [] := fun arc harc => nomatch harc
  rw [← flatMap_rowWalk_ofMentions, ← harcs, ← List.nil_append (List.flatMap rowWalk _),
    ← List.nil_append (List.flatMap rowArcs _), ← foldlM_placeRow_drawn hnone hrows]
  rfl

end Draft

/-- The node of a key lists what its links lead to. -/
theorem targets_arcsOf (mentions : List Mention) (key : NodeKey) :
    targets (walkOf mentions) (arcsOf mentions) key =
      (destinations mentions key).map fun destination =>
        (walkOf mentions).eraseDups.idxOf destination.1 := by
  rw [targets, filter_arcsOf, List.map_map]
  rfl

end ChainDiagram
