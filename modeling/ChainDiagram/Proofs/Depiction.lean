import ChainDiagram.Proofs.Lines
import ChainDiagram.Proofs.Refusal

/-!
# What a graph shows

The graph of a diagram can be said without drawing it. The links of the chains are grouped by their
sources, and a walk along the groups meets the key of every element. Its nodes are the keys in the
order in which they are met first, and each node lists what its links lead to.

Which statements there are can be said without reading the lines one after the other: each line says
one, or it is blank or a comment.

## What is here

* `Transcript`: some entries are what the lines of a text say. There is only one for any lines
  (`Transcript.unique`).
* `Faultless.transcript`: what is read from a diagram that can be compiled is its transcript.
* `nodeKeysOf`: the keys of the nodes, in their order.
* `Depicts`: a graph is the one that some statements describe. There is no other
  (`Depicts.unique`).
* `Draft.Records.depicts_drawn`: what is drawn for the statements is that graph.
* `compile_depicts`: a text is compiled to the graph that its transcript describes.
-/

set_option autoImplicit false

namespace ChainDiagram

/-! ## What the lines say -/

/-- **What a line of a text says**: the statement that stands between the whitespace at its ends,
perhaps with a comment behind it. -/
def Line.Says (raw : Line) (statement : Statement) : Prop :=
  ∃ front text back, Spaces front ∧ Spaces back ∧ Trimmed text ∧ raw = front ++ (text ++ back) ∧
    Statement.read (Line.withoutComment text) = .ok statement

/-- **Some entries are a transcript of some lines** if they are what the lines say. -/
structure Transcript (raws : List Line) (entries : List Entry) : Prop where
  /-- Every line says something, unless it is blank or holds only a comment. -/
  silent_or : ∀ raw ∈ raws, Silent raw ∨ ∃ statement, raw.Says statement
  /-- The entries are what the lines say, with the numbers of the lines from one on. -/
  mem_iff : ∀ entry, entry ∈ entries ↔
    ∃ raw, (raw, entry.line) ∈ raws.zipIdx 1 ∧ raw.Says entry.statement
  /-- They stand in the order of the lines. -/
  ordered : entries.Pairwise fun a b => a.line < b.line

/-- A statement is not empty. -/
theorem Statement.read_nil_ne_ok (statement : Statement) : Statement.read [] ≠ .ok statement := by
  have hread : Statement.read [] = .error ⟨.emptyDeclaration, 0⟩ := by cbv
  rw [hread]
  simp

/-- What is read from a line is what the line says. -/
theorem SourceLine.bind_entry?_eq_some_iff {number : Nat} {raw : Line} {entry : Entry} :
    (SourceLine.ofRaw? number raw).bind SourceLine.entry? = some entry ↔
      entry.line = number ∧ raw.Says entry.statement := by
  constructor
  · intro h
    obtain ⟨front, back, hfront, hback, hraw⟩ := exists_eq_append_trim raw
    have htext := trimmed_trim raw
    generalize trim raw = text at hraw htext
    rw [hraw, ofRaw?_append number hfront hback htext] at h
    split at h
    · cases h
    · obtain ⟨hline, hread⟩ := entry?_eq_some_iff.1 h
      exact ⟨hline, front, text, back, hfront, hback, htext, hraw, hread⟩
  · rintro ⟨hline, front, text, back, hfront, hback, htext, rfl, hread⟩
    have hsays : ¬(text.isEmpty ∨ text.head? = some '#') := by
      rintro (hempty | hcomment)
      · rw [List.isEmpty_iff.1 hempty] at hread
        exact Statement.read_nil_ne_ok _ hread
      · obtain ⟨rest, rfl⟩ := List.head?_eq_some_iff.1 hcomment
        exact Statement.read_nil_ne_ok _ hread
    rw [ofRaw?_append number hfront hback htext, if_neg hsays]
    exact entry?_eq_some_iff.2 ⟨hline, hread⟩

/-- **What lines say is determined**, with the numbers of the lines. -/
theorem Transcript.unique {raws : List Line} {entries entries' : List Entry}
    (h : Transcript raws entries) (h' : Transcript raws entries') : entries = entries' := by
  have : Std.Antisymm fun a b : Entry => a.line < b.line :=
    ⟨fun a b hlt hgt => absurd hgt (Nat.lt_asymm hlt)⟩
  have : Std.Irrefl fun a b : Entry => a.line < b.line := ⟨fun a => Nat.lt_irrefl a.line⟩
  exact h.ordered.eq_of_mem_iff h'.ordered fun entry =>
    (h.mem_iff entry).trans (h'.mem_iff entry).symm

theorem entriesOf_sourceLines (source : String) :
    entriesOf (sourceLines source) = ((linesOf source).zipIdx 1).filterMap
      fun (raw, number) => (SourceLine.ofRaw? number raw).bind SourceLine.entry? := by
  rw [sourceLines_eq, significantLines_eq_filterMap, entriesOf, List.filterMap_filterMap]

/-- Nothing is left out of what the lines of a faultless diagram say. -/
theorem Faultless.exists_read {lines : List SourceLine} (h : Faultless lines) {line : SourceLine}
    (hline : line ∈ lines) : ∃ statement, Statement.read line.text = .ok statement := by
  obtain ⟨before, after, hlines⟩ := List.append_of_mem hline
  cases hread : Statement.read line.text with
  | error failure => exact absurd ⟨_, .syntaxError hread⟩ (h.noneBad before line after hlines)
  | ok statement => exact ⟨statement, rfl⟩

/-- **What is read from the lines of a faultless diagram is their transcript.** -/
theorem Faultless.transcript {source : String} (h : Faultless (sourceLines source)) :
    Transcript (linesOf source) (entriesOf (sourceLines source)) := by
  refine ⟨fun raw hraw => ?_, fun entry => ?_, ?_⟩
  · obtain ⟨⟨raw, number⟩, hmem, rfl⟩ : ∃ numbered ∈ (linesOf source).zipIdx 1, numbered.1 = raw :=
      List.mem_map.1 (by rwa [List.zipIdx_map_fst])
    cases hline : SourceLine.ofRaw? number raw with
    | none => exact .inl (SourceLine.ofRaw?_eq_none_iff.1 hline)
    | some line =>
      have hread : line ∈ sourceLines source := by
        rw [sourceLines_eq, significantLines_eq_filterMap]
        exact List.mem_filterMap.2 ⟨_, hmem, hline⟩
      obtain ⟨statement, hstatement⟩ := h.exists_read hread
      have hentry : (SourceLine.ofRaw? number raw).bind SourceLine.entry? =
          some ⟨line.number, statement⟩ := by
        rw [hline]
        exact SourceLine.entry?_eq_some_iff.2 ⟨rfl, hstatement⟩
      exact .inr ⟨statement, (SourceLine.bind_entry?_eq_some_iff.1 hentry).2⟩
  · rw [entriesOf_sourceLines, List.mem_filterMap]
    simp only [SourceLine.bind_entry?_eq_some_iff]
    constructor
    · rintro ⟨⟨raw, number⟩, hmem, rfl, hsays⟩
      exact ⟨raw, hmem, hsays⟩
    · rintro ⟨raw, hmem, hsays⟩
      exact ⟨_, hmem, rfl, hsays⟩
  · rw [entriesOf_sourceLines]
    have hnumbers : ((linesOf source).zipIdx 1).Pairwise fun a b => a.2 < b.2 := by
      rw [← List.pairwise_map, List.zipIdx_map_snd]
      exact List.pairwise_lt_range'
    refine hnumbers.filterMap _ fun a b hlt entry hentry entry' hentry' => ?_
    rwa [(SourceLine.bind_entry?_eq_some_iff.1 hentry).1,
      (SourceLine.bind_entry?_eq_some_iff.1 hentry').1]

/-! ## Graphs and statements -/

/-- What identifies a node. -/
def Node.key (node : Node) : NodeKey := ⟨node.enclosure, node.varname⟩

/-- The keys of the nodes of a diagram: what the walk along its links meets, without repetitions. -/
def nodeKeysOf (entries : List Entry) : List NodeKey := (walkOf (mentionsOf entries)).eraseDups

/-- **A graph depicts some statements.** -/
structure Depicts (entries : List Entry) (g : Graph) : Prop where
  /-- There is one node for each key, in the order of the walk. -/
  keys : g.nodes.toList.map Node.key = nodeKeysOf entries
  /-- The id of a node is its index. -/
  id : ∀ index node, g.node? index = some node → node.id = index
  /-- A node lists all destinations of its links in the order of the links, with repetitions. -/
  adjacents : ∀ index node, g.node? index = some node →
    node.adjacents = (destinations (mentionsOf entries) node.key).map
      fun destination => (nodeKeysOf entries).idxOf destination.1
  /-- A node shows the text of its literals, or what its variable is declared to be. -/
  shows : ∀ index node, g.node? index = some node →
    ∀ element ∈ elementsOf entries, element.key = node.key →
      element.Shows (declarationsOf entries) node.value

section Depicts

variable {entries : List Entry} {g g' : Graph}

/-- The index of a node is the index of its key. -/
theorem Depicts.getElem?_nodeKeysOf (h : Depicts entries g) (index : Nat) :
    (nodeKeysOf entries)[index]? = (g.node? index).map Node.key := by
  rw [← h.keys, List.getElem?_map, Graph.node?, Array.getElem?_toList]

/-- Each node is there for some element. -/
theorem Depicts.exists_element (h : Depicts entries g) {index : Nat} {node : Node}
    (hnode : g.node? index = some node) :
    ∃ element ∈ elementsOf entries, element.key = node.key := by
  have hkey := h.getElem?_nodeKeysOf index
  rw [hnode, Option.map_some] at hkey
  exact exists_element_of_mem_walkOf (List.mem_eraseDups.1 (List.mem_of_getElem? hkey))

/-- **A key has one node.** -/
theorem Depicts.existsUnique_node (h : Depicts entries g) {key : NodeKey}
    (hkey : key ∈ nodeKeysOf entries) :
    ∃! index, ∃ node, g.node? index = some node ∧ node.key = key := by
  have hnode : ∀ index, (∃ node, g.node? index = some node ∧ node.key = key) ↔
      (nodeKeysOf entries)[index]? = some key := by
    intro index
    rw [h.getElem?_nodeKeysOf, Option.map_eq_some_iff]
  simp only [hnode]
  refine ⟨(nodeKeysOf entries).idxOf key, List.getElem?_idxOf hkey, fun index hindex => ?_⟩
  obtain ⟨hlt, rfl⟩ := List.getElem?_eq_some_iff.1 hindex
  exact ((nodup_eraseDups _).idxOf_getElem index hlt).symm

/-- **No two graphs depict the same statements**, where an element cannot show two things. -/
theorem Depicts.unique (h : Depicts entries g) (h' : Depicts entries g')
    (hshows : ∀ element ∈ elementsOf entries, ∀ value value',
      element.Shows (declarationsOf entries) value →
        element.Shows (declarationsOf entries) value' → value = value') : g = g' := by
  have hkeys : ∀ index, (g.node? index).map Node.key = (g'.node? index).map Node.key :=
    fun index => (h.getElem?_nodeKeysOf index).symm.trans (h'.getElem?_nodeKeysOf index)
  have hnodes : ∀ index, g.node? index = g'.node? index := by
    intro index
    have hkey := hkeys index
    cases hnode : g.node? index with
    | none =>
      rw [hnode, Option.map_none] at hkey
      exact (Option.map_eq_none_iff.1 hkey.symm).symm
    | some node =>
      rw [hnode, Option.map_some] at hkey
      obtain ⟨node', hnode', hkey⟩ := Option.map_eq_some_iff.1 hkey.symm
      obtain ⟨element, helement, heq⟩ := h.exists_element hnode
      have hid : node.id = node'.id := (h.id index node hnode).trans (h'.id index node' hnode').symm
      have hvalue : node.value = node'.value := hshows element helement _ _
        (h.shows index node hnode element helement heq)
        (h'.shows index node' hnode' element helement (heq.trans hkey.symm))
      have hadjacents : node.adjacents = node'.adjacents := by
        rw [h.adjacents index node hnode, h'.adjacents index node' hnode', hkey]
      rw [hnode']
      obtain ⟨id, varname, value, enclosure, adjacents⟩ := node
      obtain ⟨id', varname', value', enclosure', adjacents'⟩ := node'
      obtain ⟨rfl, rfl⟩ := NodeKey.mk.inj hkey
      cases hid
      cases hvalue
      cases hadjacents
      rfl
  obtain ⟨nodes⟩ := g
  obtain ⟨nodes'⟩ := g'
  exact congrArg Graph.mk (Array.ext_getElem? hnodes)

end Depicts

/-! ## What is drawn -/

section Drawn

variable {value : NodeKey → String} {walk : List NodeKey} {arcs : List (NodeKey × NodeKey)}

theorem node?_drawn_eq_some_iff {index : Nat} {node : Node} :
    (drawn value walk arcs).node? index = some node ↔
      ∃ key, walk.eraseDups[index]? = some key ∧ drawnNode value walk arcs index key = node := by
  rw [drawn, Graph.node?, List.getElem?_toArray, List.getElem?_mapIdx, Option.map_eq_some_iff]

theorem map_key_drawn : (drawn value walk arcs).nodes.toList.map Node.key = walk.eraseDups := by
  refine List.ext_getElem? fun index => ?_
  rw [drawn, List.toList_toArray, List.getElem?_map, List.getElem?_mapIdx, Option.map_map]
  cases walk.eraseDups[index]? <;> rfl

end Drawn

/-- **What is drawn for some statements depicts them.** -/
theorem Draft.Records.depicts_drawn {d : Draft} {entries : List Entry} (h : d.Records entries)
    (hdeclared : NoneBad (Undeclared entries) (referencesOf entries)) :
    Depicts entries (drawn (Draft.shown d.bindings) (walkOf (mentionsOf entries))
      (arcsOf (mentionsOf entries))) := by
  refine ⟨map_key_drawn, fun index node hnode => ?_, fun index node hnode => ?_,
    fun index node hnode element helement hkey => ?_⟩
  · obtain ⟨key, -, rfl⟩ := node?_drawn_eq_some_iff.1 hnode
    rfl
  · obtain ⟨key, -, rfl⟩ := node?_drawn_eq_some_iff.1 hnode
    exact targets_arcsOf (mentionsOf entries) key
  · obtain ⟨key, -, rfl⟩ := node?_drawn_eq_some_iff.1 hnode
    obtain ⟨value, hvalue⟩ := exists_shows hdeclared helement
    have hbound := (h.value?_key_eq_some_iff helement value).2 hvalue
    have hname : key.name = element.key.name := congrArg NodeKey.name hkey.symm
    show element.Shows _ (Draft.shown d.bindings key)
    rwa [Draft.shown, hname, hbound, Option.getD_some]

/-! ## What is compiled -/

/-- A graph that is compiled depicts what the lines say, and some draft has recorded that. -/
theorem exists_records_of_compile {source : String} {g : Graph} (h : compile source = .ok g) :
    ∃ d : Draft, d.Records (entriesOf (sourceLines source)) ∧
      Depicts (entriesOf (sourceLines source)) g := by
  have hfaultless := faultless_of_compile h
  obtain ⟨d, hrecords, hcompile⟩ := hfaultless.compile
  obtain rfl := Except.ok.inj (hcompile.symm.trans h)
  exact ⟨d, hrecords, hrecords.depicts_drawn (noneBad_undeclared_iff.2 hfaultless.declared)⟩

/-- **A diagram is compiled to the graph that depicts it**, and to no other. Every line is a
statement, unless it is blank or a comment, and the graph depicts what all of them say. Every
element of a chain has one node; and a node that is no element, such as one for a variable that is
declared and not used, is not there. -/
theorem compile_depicts {source : String} {g : Graph} (h : compile source = .ok g) :
    ∃ entries, (∀ entries', Transcript (linesOf source) entries' ↔ entries' = entries) ∧
      (∀ g', Depicts entries g' ↔ g' = g) ∧
      (∀ element ∈ elementsOf entries,
        ∃! index, ∃ node, g.node? index = some node ∧ node.key = element.key) ∧
      ∀ index node, g.node? index = some node →
        ∃ element ∈ elementsOf entries, element.key = node.key := by
  have hfaultless := faultless_of_compile h
  obtain ⟨d, hrecords, hdepicts⟩ := exists_records_of_compile h
  refine ⟨entriesOf (sourceLines source), fun entries' => ⟨fun htranscript => ?_, ?_⟩,
    fun g' => ⟨fun hg' => ?_, ?_⟩, fun element helement => ?_,
    fun index node hnode => hdepicts.exists_element hnode⟩
  · exact htranscript.unique hfaultless.transcript
  · rintro rfl
    exact hfaultless.transcript
  · refine hg'.unique hdepicts fun element helement value value' hvalue hvalue' => ?_
    rw [← hrecords.value?_key_eq_some_iff helement] at hvalue hvalue'
    exact Option.some.inj (hvalue.symm.trans hvalue')
  · rintro rfl
    exact hdepicts
  · exact hdepicts.existsUnique_node
      (List.mem_eraseDups.2 (hrecords.key_mem_walkOf helement))

/-- A chain whose links both run from the right to the left, a declaration of the variable in it,
and two lines below another declaration. -/
def backwardEntries : List Entry :=
  [⟨1, .chain ⟨[⟨.rectangle, .reference "a"⟩, ⟨.roundedRectangle, .literal "x"⟩,
      ⟨.rectangle, .reference "a"⟩], [.backward, .backward]⟩⟩,
    ⟨2, .declaration ⟨"a", "v"⟩⟩, ⟨4, .declaration ⟨"b", "w"⟩⟩]

/-- The literal comes first, since it is the source of the first link. There is no node for `b`. -/
theorem compile_depicts_backward :
    compile "[a] <- (\"x\") <- [a]\na := \"v\"\n# unused\nb := \"w\"" =
        .ok ⟨#[⟨0, "12400", "x", .roundedRectangle, [1]⟩, ⟨1, "a", "v", .rectangle, [0]⟩]⟩ ∧
      Transcript (linesOf "[a] <- (\"x\") <- [a]\na := \"v\"\n# unused\nb := \"w\"")
        backwardEntries ∧
      Depicts backwardEntries
        ⟨#[⟨0, "12400", "x", .roundedRectangle, [1]⟩, ⟨1, "a", "v", .rectangle, [0]⟩]⟩ := by
  have hlines : sourceLines "[a] <- (\"x\") <- [a]\na := \"v\"\n# unused\nb := \"w\"" =
      [⟨1, 0, "[a] <- (\"x\") <- [a]".toList⟩, ⟨2, 0, "a := \"v\"".toList⟩,
        ⟨4, 0, "b := \"w\"".toList⟩] := by rfl
  have hchain : Statement.read "[a] <- (\"x\") <- [a]".toList =
      .ok (.chain ⟨[⟨.rectangle, .reference "a"⟩, ⟨.roundedRectangle, .literal "x"⟩,
        ⟨.rectangle, .reference "a"⟩], [.backward, .backward]⟩) := by
    -- the tokens of the chain, with one blank on each side of the arrows
    have hgaps : ∀ gap ∈ ([[], [], [], [' '], [' '], [], [], [' '], [' ']] : List Line),
        Blanks gap := by simp [Blanks, isBlank]
    refine Statement.read_eq_chain_iff.2 (Chain.read_eq_ok_iff.2 ⟨⟨rfl, ?_⟩, spelled_layOut hgaps⟩)
    simp [Label.Writable, Line.IsName, Line.Quotable]
  have hfirst : Statement.read "a := \"v\"".toList = .ok (.declaration ⟨"a", "v"⟩) := by cbv
  have hsecond : Statement.read "b := \"w\"".toList = .ok (.declaration ⟨"b", "w"⟩) := by cbv
  have h : compile "[a] <- (\"x\") <- [a]\na := \"v\"\n# unused\nb := \"w\"" =
      .ok ⟨#[⟨0, "12400", "x", .roundedRectangle, [1]⟩, ⟨1, "a", "v", .rectangle, [0]⟩]⟩ := by
    rw [compile, hlines]
    simp only [List.foldlM_cons, Draft.readLine, hchain, hfirst, hsecond]
    rfl
  have htranscript := (faultless_of_compile h).transcript
  obtain ⟨entries, hentries, hdepicts, -⟩ := compile_depicts h
  obtain rfl := (hentries _).1 htranscript
  rw [hlines] at htranscript hdepicts
  simp only [entriesOf, List.filterMap_cons, SourceLine.entry?, hchain, hfirst, hsecond]
    at htranscript hdepicts
  exact ⟨h, htranscript, (hdepicts _).2 rfl⟩

end ChainDiagram
