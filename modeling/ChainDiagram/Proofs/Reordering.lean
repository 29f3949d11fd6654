import ChainDiagram.Proofs.Consistency
import ChainDiagram.Proofs.Depiction
import ChainDiagram.Proofs.Lines

/-!
# Lines in another order

The order of the lines decides how the nodes of a diagram are numbered, and which of several errors
is reported. It decides nothing else: whether there is an error, which nodes there are, what they
show and how they are linked. The numbers come from the chains alone, so declarations can stand
anywhere.

## What is here

* `chainsOf`: what is left of some statements without the declarations. It says which elements there
  are (`elementsOf_eq_flatMap`) and how they are linked (`map_ends_mentionsOf`).
* `Depicts.mem_faces_iff`, `Depicts.keyedEdges_perm`: the nodes and the links of a graph, up to
  their order.
* `Depicts.of_chainsOf_eq`: with the same chains in the same order, the graph is the same.
* `compile_reorder`: what is compiled from a text whose lines come in another order.
-/

set_option autoImplicit false

namespace ChainDiagram

/-! ## The chains of a diagram -/

/-- The chain that a statement is, if it is one. -/
def Statement.chain? : Statement → Option Chain
  | .declaration _ => none
  | .chain c => some c

/-- All chains, in their order. -/
def chainsOf (entries : List Entry) : List Chain :=
  (statementsOf entries).filterMap Statement.chain?

/-- What a mention is about, without the line that it is in. -/
def Mention.ends (mention : Mention) : NodeKey × Option NodeKey :=
  (mention.source, mention.destination?)

/-- What a chain mentions, whichever line it is in. -/
def Chain.ends (chain : Chain) : List (NodeKey × Option NodeKey) :=
  (chain.mentions 0).map Mention.ends

theorem Chain.map_ends_mentions (chain : Chain) (line : Nat) :
    (chain.mentions line).map Mention.ends = chain.ends := by
  rw [Chain.ends, Chain.mentions, Chain.mentions]
  split
  · rfl
  · rw [List.map_map, List.map_map]
    rfl

section Chains

variable (entries : List Entry)

/-- Only chains mention anything. -/
theorem map_ends_mentionsOf :
    (mentionsOf entries).map Mention.ends = (chainsOf entries).flatMap Chain.ends := by
  induction entries with
  | nil => rfl
  | cons entry entries ih =>
    obtain ⟨line, statement⟩ := entry
    cases statement with
    | declaration d => exact ih
    | chain c =>
      show (c.mentions line ++ mentionsOf entries).map Mention.ends =
        c.ends ++ (chainsOf entries).flatMap Chain.ends
      rw [List.map_append, ih, c.map_ends_mentions]

/-- Only chains have elements. -/
theorem elementsOf_eq_flatMap :
    elementsOf entries = (chainsOf entries).flatMap fun chain => chain.elements := by
  induction entries with
  | nil => rfl
  | cons entry entries ih =>
    obtain ⟨line, statement⟩ := entry
    cases statement with
    | declaration d => exact ih
    | chain c =>
      show c.elements ++ elementsOf entries = c.elements ++ (chainsOf entries).flatMap _
      rw [ih]

end Chains

/-! ## Links, whatever their lines -/

/-- The links that are mentioned. -/
def linksOf (mentions : List Mention) : List (NodeKey × NodeKey) :=
  mentions.filterMap fun mention => mention.destination?.map (mention.source, ·)

/-- The links that leave a key lead to its destinations. -/
theorem filter_linksOf (mentions : List Mention) (key : NodeKey) :
    (linksOf mentions).filter (·.1 = key) =
      (destinations mentions key).map fun destination => (key, destination.1) := by
  rw [linksOf, destinations, List.filter_filterMap, List.map_filterMap]
  refine List.filterMap_congr fun mention _ => ?_
  obtain ⟨source, destination?, line⟩ := mention
  cases destination? with
  | none => simp [Mention.destinationFrom?]
  | some destination => by_cases h : source = key <;> simp [Mention.destinationFrom?, h]

/-- Links are the same up to their order if each key has the same ones. -/
theorem perm_of_filter_eq {links links' : List (NodeKey × NodeKey)}
    (h : ∀ key, links.filter (·.1 = key) = links'.filter (·.1 = key)) : links.Perm links' := by
  rw [List.perm_iff_count]
  intro link
  have hcount := congrArg (List.count link) (h link.1)
  rwa [List.count_filter (by simp), List.count_filter (by simp)] at hcount

/-- If every source is among some keys, the links can be taken key by key. -/
theorem flatMap_destinations_perm {mentions : List Mention} {keys : List NodeKey}
    (hkeys : keys.Nodup) (hsources : ∀ mention ∈ mentions, mention.source ∈ keys) :
    (keys.flatMap fun key =>
      (destinations mentions key).map fun destination => (key, destination.1)).Perm
        (linksOf mentions) := by
  refine perm_of_filter_eq fun key => ?_
  rw [filter_linksOf, filter_flatMap_of_nodup hkeys]
  · split
    · rfl
    · rename_i hkey
      have hnot : key ∉ sources mentions := by
        intro hmem
        obtain ⟨mention, hmention, rfl⟩ := mem_sources_iff.1 hmem
        exact hkey (hsources mention hmention)
      rw [destinations_eq_nil hnot, List.map_nil]
  · intro source link hlink
    obtain ⟨destination, -, rfl⟩ := List.mem_map.1 hlink
    rfl

section Ends

variable {mentions mentions' : List Mention}

theorem linksOf_eq (mentions : List Mention) :
    linksOf mentions =
      (mentions.map Mention.ends).filterMap fun ends => ends.2.map (ends.1, ·) := by
  rw [List.filterMap_map]
  rfl

theorem sources_eq (h : mentions'.map Mention.ends = mentions.map Mention.ends) :
    sources mentions' = sources mentions := by
  have hsources : ∀ m : List Mention, m.map (·.source) = (m.map Mention.ends).map Prod.fst := by
    intro m
    rw [List.map_map]
    rfl
  rw [sources, sources, hsources, hsources, h]

theorem map_fst_destinations_eq (h : mentions'.map Mention.ends = mentions.map Mention.ends)
    (key : NodeKey) :
    (destinations mentions' key).map Prod.fst = (destinations mentions key).map Prod.fst := by
  have hlinks : linksOf mentions' = linksOf mentions := by rw [linksOf_eq, linksOf_eq, h]
  have hsnd : ∀ m : List Mention, (destinations m key).map Prod.fst =
      ((linksOf m).filter (·.1 = key)).map Prod.snd := by
    intro m
    rw [filter_linksOf, List.map_map]
    rfl
  rw [hsnd, hsnd, hlinks]

theorem walkOf_eq (h : mentions'.map Mention.ends = mentions.map Mention.ends) :
    walkOf mentions' = walkOf mentions := by
  rw [walkOf, walkOf, sources_eq h]
  refine List.flatMap_congr fun source _ => ?_
  rw [map_fst_destinations_eq h]

end Ends

/-! ## What a graph shows, whatever its numbers -/

/-- A node without its number and its links. -/
def Node.face (node : Node) : String × String × Enclosure :=
  (node.varname, node.value, node.enclosure)

namespace Graph

/-- The faces of the nodes. -/
def faces (g : Graph) : List (String × String × Enclosure) := g.nodes.toList.map Node.face

/-- The key of the node at an index. -/
def key? (g : Graph) (index : Nat) : Option NodeKey := (g.node? index).map Node.key

/-- The links as pairs of keys. -/
def keyedEdges (g : Graph) : List (Option NodeKey × Option NodeKey) :=
  g.edges.map (Prod.map g.key? g.key?)

end Graph

/-- What an element shows depends only on which declarations there are. -/
theorem Element.shows_congr {declarations declarations' : List Declaration}
    (h : ∀ declaration, declaration ∈ declarations' ↔ declaration ∈ declarations)
    (element : Element) (value : String) :
    element.Shows declarations' value ↔ element.Shows declarations value := by
  rw [Shows, Shows]
  split
  · rfl
  · exact h _

section Depicts

variable {entries entries' : List Entry} {g : Graph}

theorem Depicts.nodup_faces (h : Depicts entries g) : g.faces.Nodup := by
  have hkeys : g.faces.map (fun face => NodeKey.mk face.2.2 face.1) = nodeKeysOf entries := by
    rw [← h.keys, Graph.faces, List.map_map]
    rfl
  refine List.Nodup.of_map (fun face => NodeKey.mk face.2.2 face.1) ?_
  rw [hkeys]
  exact nodup_eraseDups _

/-- **There is a node exactly for what some element shows.** -/
theorem Depicts.mem_faces_iff (h : Depicts entries g) {d : Draft} (hrecords : d.Records entries)
    {name value : String} {enclosure : Enclosure} :
    (name, value, enclosure) ∈ g.faces ↔
      ∃ element ∈ elementsOf entries, element.key = ⟨enclosure, name⟩ ∧
        element.Shows (declarationsOf entries) value := by
  rw [Graph.faces, List.mem_map]
  constructor
  · rintro ⟨node, hnode, hface⟩
    obtain ⟨rfl, rfl, rfl⟩ : node.varname = name ∧ node.value = value ∧
      node.enclosure = enclosure := by simpa [Node.face] using hface
    obtain ⟨index, hindex⟩ := List.mem_iff_getElem?.1 hnode
    rw [Array.getElem?_toList] at hindex
    obtain ⟨element, helement, hkey⟩ := h.exists_element hindex
    exact ⟨element, helement, hkey, h.shows index node hindex element helement hkey⟩
  · rintro ⟨element, helement, hkey, hshows⟩
    obtain ⟨index, ⟨node, hindex, hnode⟩, -⟩ := h.existsUnique_node
      (List.mem_eraseDups.2 (hrecords.key_mem_walkOf helement))
    have hvalue := h.shows index node hindex element helement hnode.symm
    rw [← hrecords.value?_key_eq_some_iff helement] at hshows hvalue
    obtain rfl := Option.some.inj (hvalue.symm.trans hshows)
    obtain ⟨rfl, rfl⟩ := NodeKey.mk.inj (hnode.trans hkey)
    refine ⟨node, List.mem_iff_getElem?.2 ⟨index, ?_⟩, rfl⟩
    rw [Array.getElem?_toList]
    exact hindex

/-- The key at an index is the key of the node there. -/
theorem Depicts.key?_eq (h : Depicts entries g) (index : Nat) :
    g.key? index = (nodeKeysOf entries)[index]? := (h.getElem?_nodeKeysOf index).symm

/-- The links of a graph, node by node. -/
theorem Depicts.keyedEdges_eq (h : Depicts entries g) :
    g.keyedEdges = ((nodeKeysOf entries).flatMap fun key =>
      (destinations (mentionsOf entries) key).map fun destination => (key, destination.1)).map
        (Prod.map some some) := by
  rw [Graph.keyedEdges, Graph.edges, List.map_flatMap, ← h.keys, List.flatMap_map, List.map_flatMap]
  refine List.flatMap_congr fun node hnode => ?_
  obtain ⟨index, hindex⟩ := List.mem_iff_getElem?.1 hnode
  rw [Array.getElem?_toList] at hindex
  have hkey : g.key? node.id = some node.key := by
    rw [h.id index node hindex, Graph.key?, Graph.node?, hindex, Option.map_some]
  rw [h.adjacents index node hindex, List.map_map, List.map_map, List.map_map]
  refine List.map_congr_left fun destination hdestination => ?_
  have hmem : destination.1 ∈ nodeKeysOf entries := List.mem_eraseDups.2
    (mem_walkOf_iff.2 ⟨_, mem_destinations_iff.1 hdestination, .inr rfl⟩)
  have hend : g.key? ((nodeKeysOf entries).idxOf destination.1) = some destination.1 := by
    rw [h.key?_eq, List.getElem?_idxOf hmem]
  show (g.key? node.id, g.key? _) = _
  rw [hkey, hend]
  rfl

/-- **The links of a graph are those that are mentioned.** -/
theorem Depicts.keyedEdges_perm (h : Depicts entries g) :
    g.keyedEdges.Perm ((linksOf (mentionsOf entries)).map (Prod.map some some)) := by
  rw [h.keyedEdges_eq]
  refine (flatMap_destinations_perm (nodup_eraseDups _) fun mention hmention => ?_).map _
  exact List.mem_eraseDups.2 (mem_walkOf_iff.2 ⟨mention, hmention, .inl rfl⟩)

/-- **The same chains with the same declarations are depicted by the same graph**, wherever the
declarations stand. -/
theorem Depicts.of_chainsOf_eq (h : Depicts entries' g)
    (hchains : chainsOf entries' = chainsOf entries)
    (hdeclarations : ∀ declaration,
      declaration ∈ declarationsOf entries' ↔ declaration ∈ declarationsOf entries) :
    Depicts entries g := by
  have hends : (mentionsOf entries').map Mention.ends = (mentionsOf entries).map Mention.ends := by
    rw [map_ends_mentionsOf, map_ends_mentionsOf, hchains]
  have hkeys : nodeKeysOf entries' = nodeKeysOf entries := by
    rw [nodeKeysOf, nodeKeysOf, walkOf_eq hends]
  refine ⟨h.keys.trans hkeys, h.id, ?_, ?_⟩
  · intro index node hnode
    have hmap := map_fst_destinations_eq hends node.key
    rw [h.adjacents index node hnode, hkeys, ← Function.comp_def (nodeKeysOf entries).idxOf,
      ← List.map_map, hmap, List.map_map, Function.comp_def]
  · intro index node hnode element helement hkey
    rw [elementsOf_eq_flatMap, ← hchains, ← elementsOf_eq_flatMap] at helement
    exact (Element.shows_congr hdeclarations element node.value).1
      (h.shows index node hnode element helement hkey)

end Depicts

/-! ## The lines of a text in another order -/

/-- What stands in the lines of a text, without the whitespace around it. Blank lines are left
out. -/
def contentsOf (source : String) : List Line := ((linesOf source).map trim).filter (· ≠ [])

/-- What a line says, without its comment, if it says anything. -/
def Line.text? (raw : Line) : Option Line := (SourceLine.ofRaw? 0 raw).map SourceLine.text

/-- Whitespace at the ends of a line does not matter. -/
theorem Line.text?_trim (raw : Line) : Line.text? (trim raw) = raw.text? := by
  simp only [text?, SourceLine.ofRaw?, trim_trim]
  split <;> rfl

/-- The chain in a line, if it is one. -/
def Line.chain? (raw : Line) : Option Chain :=
  raw.text?.bind fun text => (Chain.read text).toOption

theorem Line.chain?_eq_some_iff {raw : Line} {chain : Chain} :
    raw.chain? = some chain ↔ ∃ text, raw.text? = some text ∧ Chain.read text = .ok chain := by
  rw [Line.chain?, Option.bind_eq_some_iff]
  refine exists_congr fun text => and_congr_right fun _ => ?_
  cases Chain.read text <;> simp [Except.toOption]

/-- The chains in the lines of a text, in their order. -/
def chainsIn (source : String) : List Chain := (linesOf source).filterMap Line.chain?

/-- The numbers of the lines do not matter for what they say. -/
theorem map_text_significantLines (number : Nat) (raws : List Line) :
    (significantLines number raws).map SourceLine.text = raws.filterMap Line.text? := by
  induction raws generalizing number with
  | nil => rfl
  | cons raw raws ih =>
    rw [significantLines, List.map_append, ih, List.filterMap_cons, Line.text?,
      SourceLine.ofRaw?_eq_map]
    cases SourceLine.ofRaw? 0 raw <;> rfl

theorem map_text_sourceLines (source : String) :
    (sourceLines source).map SourceLine.text = (linesOf source).filterMap Line.text? := by
  rw [sourceLines_eq, map_text_significantLines]

theorem map_text_sourceLines_contentsOf (source : String) :
    (sourceLines source).map SourceLine.text = (contentsOf source).filterMap Line.text? := by
  rw [map_text_sourceLines, contentsOf, List.filterMap_filter, List.filterMap_map]
  refine List.filterMap_congr fun raw _ => ?_
  by_cases hblank : trim raw = []
  · have hnone : raw.text? = none := by
      rw [← Line.text?_trim, hblank]
      rfl
    simp [hblank, hnone]
  · simp [hblank, Line.text?_trim]

theorem Statement.bind_chain?_read (text : Line) :
    (Statement.read text).toOption.bind Statement.chain? = (Chain.read text).toOption := by
  cases hchain : Chain.read text with
  | ok c =>
    rw [Statement.read_eq_chain_iff.2 hchain]
    rfl
  | error failure =>
    cases hread : Statement.read text with
    | error failure' => rfl
    | ok statement =>
      cases statement with
      | declaration d => rfl
      | chain c => exact absurd (hchain.symm.trans (Statement.read_eq_chain_iff.1 hread)) (by simp)

/-- The chains that are compiled are those in the lines. -/
theorem chainsOf_entriesOf (source : String) :
    chainsOf (entriesOf (sourceLines source)) = chainsIn source := by
  rw [chainsOf, statementsOf_entriesOf, map_text_sourceLines, List.filterMap_filterMap,
    List.filterMap_filterMap, chainsIn]
  refine List.filterMap_congr fun raw _ => ?_
  rw [Line.chain?]
  cases raw.text? with
  | none => rfl
  | some text => exact Statement.bind_chain?_read text

section Reordering

variable {source source' : String} {g g' : Graph}

/-- Lines that come in another order have their contents in another order. -/
theorem contentsOf_perm (h : (linesOf source').Perm (linesOf source)) :
    (contentsOf source').Perm (contentsOf source) :=
  (h.map trim).filter _

/-- Contents that come in another order say the same in another order. -/
theorem map_text_perm (h : (contentsOf source').Perm (contentsOf source)) :
    ((sourceLines source').map SourceLine.text).Perm
      ((sourceLines source).map SourceLine.text) := by
  rw [map_text_sourceLines_contentsOf, map_text_sourceLines_contentsOf]
  exact h.filterMap _

/-- The nodes are the same up to their order. -/
theorem faces_perm_of_contents (h : (contentsOf source').Perm (contentsOf source))
    (hg : compile source = .ok g) (hg' : compile source' = .ok g') : g'.faces.Perm g.faces := by
  have hstatements := statementsOf_perm (map_text_perm h)
  obtain ⟨d, hrecords, hdepicts⟩ := exists_records_of_compile hg
  obtain ⟨d', hrecords', hdepicts'⟩ := exists_records_of_compile hg'
  refine (List.perm_ext_iff_of_nodup hdepicts'.nodup_faces hdepicts.nodup_faces).2 ?_
  rintro ⟨name, value, enclosure⟩
  have hshows : ∀ element : Element,
      element.Shows (declarationsOf (entriesOf (sourceLines source'))) value ↔
        element.Shows (declarationsOf (entriesOf (sourceLines source))) value := by
    intro element
    exact Element.shows_congr (fun _ => (declarationsOf_perm hstatements).mem_iff) element value
  rw [hdepicts'.mem_faces_iff hrecords', hdepicts.mem_faces_iff hrecords]
  simp only [hshows, (elementsOf_perm hstatements).mem_iff]

/-- The links are the same up to their order. -/
theorem keyedEdges_perm_of_contents (h : (contentsOf source').Perm (contentsOf source))
    (hg : compile source = .ok g) (hg' : compile source' = .ok g') :
    g'.keyedEdges.Perm g.keyedEdges := by
  obtain ⟨-, -, hdepicts⟩ := exists_records_of_compile hg
  obtain ⟨-, -, hdepicts'⟩ := exists_records_of_compile hg'
  have hlinks : (linksOf (mentionsOf (entriesOf (sourceLines source')))).Perm
      (linksOf (mentionsOf (entriesOf (sourceLines source)))) := by
    rw [linksOf_eq, linksOf_eq, map_ends_mentionsOf, map_ends_mentionsOf]
    exact (((statementsOf_perm (map_text_perm h)).filterMap _).flatMap_right _).filterMap _
  exact hdepicts'.keyedEdges_perm.trans ((hlinks.map _).trans hdepicts.keyedEdges_perm.symm)

/-- Where the declarations stand does not matter at all. -/
theorem eq_of_chainsIn_eq (h : (contentsOf source').Perm (contentsOf source))
    (hchains : chainsIn source' = chainsIn source)
    (hg : compile source = .ok g) (hg' : compile source' = .ok g') : g' = g := by
  obtain ⟨d, hrecords, hdepicts⟩ := exists_records_of_compile hg
  obtain ⟨-, -, hdepicts'⟩ := exists_records_of_compile hg'
  rw [← chainsOf_entriesOf, ← chainsOf_entriesOf] at hchains
  have hdeclarations := declarationsOf_perm (statementsOf_perm (map_text_perm h))
  refine (hdepicts'.of_chainsOf_eq hchains fun _ => hdeclarations.mem_iff).unique hdepicts ?_
  intro element helement value value' hvalue hvalue'
  rw [← hrecords.value?_key_eq_some_iff helement] at hvalue hvalue'
  exact Option.some.inj (hvalue.symm.trans hvalue')

/-- **The order of the lines matters only for the numbers.** A text whose lines come in another
order, whatever whitespace and blank lines are between them, is compiled exactly if the other text
is. The graph has the same nodes, with the same texts and shapes, and the same links between them.
If the chains come in the same order, wherever the declarations have gone, it is the same graph. -/
theorem compile_reorder (h : (contentsOf source').Perm (contentsOf source)) :
    ((∃ g, compile source' = .ok g) ↔ ∃ g, compile source = .ok g) ∧
    ∀ g g', compile source = .ok g → compile source' = .ok g' →
      g'.faces.Perm g.faces ∧ g'.keyedEdges.Perm g.keyedEdges ∧
        (chainsIn source' = chainsIn source → g' = g) := by
  have htexts := map_text_perm h
  constructor
  · rw [exists_compile_iff, exists_compile_iff]
    exact ⟨fun hconsistent => hconsistent.of_perm htexts.symm,
      fun hconsistent => hconsistent.of_perm htexts⟩
  · intro g g' hg hg'
    exact ⟨faces_perm_of_contents h hg hg', keyedEdges_perm_of_contents h hg hg',
      fun hchains => eq_of_chainsIn_eq h hchains hg hg'⟩

/-- A declaration is moved below the chain that uses its name. -/
theorem compile_reorder_declared_below :
    (contentsOf "[a]\na := \"v\"").Perm (contentsOf "a := \"v\"\n[a]\n") ∧
      ∃ g, compile "a := \"v\"\n[a]\n" = .ok g ∧ compile "[a]\na := \"v\"" = .ok g := by
  have hlines : linesOf "a := \"v\"\n[a]\n" = ["a := \"v\"".toList, "[a]".toList] := by rfl
  have hlines' : linesOf "[a]\na := \"v\"" = ["[a]".toList, "a := \"v\"".toList] := by rfl
  have hperm : (contentsOf "[a]\na := \"v\"").Perm (contentsOf "a := \"v\"\n[a]\n") := by
    refine contentsOf_perm ?_
    rw [hlines, hlines']
    exact .swap _ _ _
  have hdeclaration : Line.chain? "a := \"v\"".toList = none := by cbv
  have hchains : chainsIn "[a]\na := \"v\"" = chainsIn "a := \"v\"\n[a]\n" := by
    simp only [chainsIn, hlines, hlines', List.filterMap_cons, List.filterMap_nil, hdeclaration]
  have hsource : sourceLines "a := \"v\"\n[a]\n" =
      [⟨1, 0, "a := \"v\"".toList⟩, ⟨2, 0, "[a]".toList⟩] := by rfl
  have hfirst : Statement.read "a := \"v\"".toList = .ok (.declaration ⟨"a", "v"⟩) := by cbv
  have hsecond : Statement.read "[a]".toList =
      .ok (.chain ⟨[⟨.rectangle, .reference "a"⟩], []⟩) := by cbv
  obtain ⟨g, hg⟩ : ∃ g, compile "a := \"v\"\n[a]\n" = .ok g := by
    rw [compile, hsource]
    simp only [List.foldlM_cons, Draft.readLine, hfirst, hsecond]
    exact ⟨_, rfl⟩
  obtain ⟨g', hg'⟩ := (compile_reorder hperm).1.2 ⟨g, hg⟩
  obtain rfl := ((compile_reorder hperm).2 g g' hg hg').2.2 hchains
  exact ⟨hperm, g', hg, hg'⟩

end Reordering

end ChainDiagram
