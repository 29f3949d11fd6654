import ChainDiagram.Proofs.Reordering

/-!
# Which elements are one node

The node of an element is found by a key, and the key of a literal is made from a hash. Two texts
may have the same hash, and still the nodes of a graph are told apart by what is written. Literals
that collide are refused, so there is no graph for them; and a literal never has the key of a
variable, since the names of variables are letters while those of literals are digits.

## What is here

* `Graph.nodeOf?`: the node of an element.
* `Element.eq_of_key_eq`: elements that agree and have one key are written alike.
* `Depicts.nodeOf?_eq_some`, `Depicts.id_mem_adjacents`: where the node of an element stands, and
  what it is linked to.
* `elements_are_told_apart`: what the nodes of the elements of a diagram are.
-/

set_option autoImplicit false

namespace ChainDiagram

/-- The node of an element, if the graph has it. -/
def Graph.nodeOf? (g : Graph) (element : Element) : Option Node :=
  g.nodeNamed? element.key.name element.key.enclosure

/-- It is found by its key. -/
theorem Graph.nodeOf?_eq_find? (g : Graph) (element : Element) :
    g.nodeOf? element = g.nodes.find? fun node => node.key = element.key := by
  rw [nodeOf?, nodeNamed?]
  refine congrArg (Array.find? · g.nodes) (funext fun node => decide_eq_decide.2 ?_)
  obtain ⟨enclosure, name⟩ := element.key
  rw [Node.key, NodeKey.mk.injEq, and_comm]

theorem Graph.key_of_nodeOf? {g : Graph} {element : Element} {node : Node}
    (h : g.nodeOf? element = some node) : node.key = element.key := by
  rw [nodeOf?_eq_find?] at h
  simpa using Array.find?_some h

/-! ## Keys -/

/-- A variable has no key of a literal. -/
theorem Element.key_ne_of_literal {a b : Element} {text name : String}
    (ha : a.label = .literal text) (hb : b.label = .reference name) (hname : b.label.Writable) :
    a.key ≠ b.key := by
  intro hkey
  have hnames := congrArg NodeKey.name hkey
  simp only [Element.key, ha, hb] at hnames
  rw [hb] at hname
  exact not_isName_nameOfLiteral text a.enclosure (hnames ▸ hname)

/-- **Elements that agree have the same key only if they are written alike.** -/
theorem Element.eq_of_key_eq {a b : Element} (hagree : a.Agrees b) (ha : a.label.Writable)
    (hb : b.label.Writable) (hkey : a.key = b.key) :
    a.enclosure = b.enclosure ∧ a.label = b.label := by
  have henclosure : ∀ element : Element, element.key.enclosure = element.enclosure := by
    intro element
    rw [Element.key]
    split <;> rfl
  refine ⟨by rw [← henclosure a, ← henclosure b, hkey], ?_⟩
  have hname := congrArg NodeKey.name hkey
  cases hlabel : a.label with
  | literal text =>
    cases hlabel' : b.label with
    | literal text' =>
      simp only [Element.key, hlabel, hlabel'] at hname
      rw [hagree text text' hlabel hlabel' hname]
    | reference name => exact absurd hkey (Element.key_ne_of_literal hlabel hlabel' hb)
  | reference name =>
    cases hlabel' : b.label with
    | literal text => exact absurd hkey.symm (Element.key_ne_of_literal hlabel' hlabel ha)
    | reference name' =>
      simp only [Element.key, hlabel, hlabel'] at hname
      rw [hname]

/-! ## Nodes -/

section Depicts

variable {entries : List Entry} {g : Graph}

/-- **The node of an element** stands at its id. -/
theorem Depicts.nodeOf?_eq_some (h : Depicts entries g) {element : Element}
    (hkey : element.key ∈ nodeKeysOf entries) :
    ∃ node, g.nodeOf? element = some node ∧ g.node? node.id = some node := by
  obtain ⟨index, ⟨other, hother, hotherKey⟩, -⟩ := h.existsUnique_node hkey
  rw [Graph.nodeOf?_eq_find?]
  cases hnode : g.nodes.find? fun node => node.key = element.key with
  | none =>
    have hnone := Array.find?_eq_none.1 hnode other (Array.mem_of_getElem? hother)
    exact absurd (decide_eq_true hotherKey) hnone
  | some node =>
    obtain ⟨index', hindex'⟩ := Array.mem_iff_getElem?.1 (Array.mem_of_find?_eq_some hnode)
    exact ⟨node, rfl, h.id index' node hindex' ▸ hindex'⟩

/-- **Elements are one node exactly if they have one key.** -/
theorem Depicts.nodeOf?_eq_iff (h : Depicts entries g) {a b : Element}
    (hkey : a.key ∈ nodeKeysOf entries) : g.nodeOf? a = g.nodeOf? b ↔ a.key = b.key := by
  refine ⟨fun heq => ?_, fun heq => by rw [Graph.nodeOf?, heq, Graph.nodeOf?]⟩
  obtain ⟨node, hnode, -⟩ := h.nodeOf?_eq_some hkey
  rw [← Graph.key_of_nodeOf? hnode, ← Graph.key_of_nodeOf? (heq ▸ hnode)]

/-- The id of a node is the place of its key. -/
theorem Depicts.idxOf_key (h : Depicts entries g) {node : Node}
    (hnode : g.node? node.id = some node) : (nodeKeysOf entries).idxOf node.key = node.id := by
  have hkey := h.getElem?_nodeKeysOf node.id
  rw [hnode, Option.map_some] at hkey
  obtain ⟨hlt, hget⟩ := List.getElem?_eq_some_iff.1 hkey
  rw [← hget]
  exact (nodup_eraseDups _).idxOf_getElem node.id hlt

/-- **A link leads from node to node.** -/
theorem Depicts.id_mem_adjacents (h : Depicts entries g) {mention : Mention}
    (hmention : mention ∈ mentionsOf entries) {source destination : Element}
    (hsource : mention.source = source.key)
    (hdestination : mention.destination? = some destination.key) :
    ∃ node node', g.nodeOf? source = some node ∧ g.nodeOf? destination = some node' ∧
      node'.id ∈ node.adjacents := by
  obtain ⟨key, key?, line⟩ := mention
  obtain rfl : key = source.key := hsource
  obtain rfl : key? = some destination.key := hdestination
  have hmem : source.key ∈ nodeKeysOf entries :=
    List.mem_eraseDups.2 (mem_walkOf_iff.2 ⟨_, hmention, .inl rfl⟩)
  have hmem' : destination.key ∈ nodeKeysOf entries :=
    List.mem_eraseDups.2 (mem_walkOf_iff.2 ⟨_, hmention, .inr rfl⟩)
  obtain ⟨node, hnode, hindex⟩ := h.nodeOf?_eq_some hmem
  obtain ⟨node', hnode', hindex'⟩ := h.nodeOf?_eq_some hmem'
  refine ⟨node, node', hnode, hnode', ?_⟩
  rw [h.adjacents _ node hindex, ← h.idxOf_key hindex', Graph.key_of_nodeOf? hnode,
    Graph.key_of_nodeOf? hnode']
  have hlink : (destination.key, line) ∈ destinations (mentionsOf entries) source.key :=
    mem_destinations_iff.2 hmention
  exact List.mem_map_of_mem hlink

end Depicts

/-! ## The elements of a text -/

section Source

variable {source : String} {g : Graph} {chain chain' : Chain}

/-- The chains in a text are statements in its lines. -/
theorem exists_entry_of_mem_chainsIn (hchain : chain ∈ chainsIn source) :
    ∃ line, ⟨line, .chain chain⟩ ∈ entriesOf (sourceLines source) := by
  rw [← chainsOf_entriesOf] at hchain
  obtain ⟨statement, hstatement, hsome⟩ := List.mem_filterMap.1 hchain
  obtain ⟨entry, hentry, rfl⟩ := List.mem_map.1 hstatement
  obtain ⟨line, statement⟩ := entry
  cases statement with
  | declaration d => cases hsome
  | chain c => exact ⟨line, Option.some.inj hsome ▸ hentry⟩

/-- Their elements are compiled. -/
theorem mem_elementsOf_of_mem_chainsIn (hchain : chain ∈ chainsIn source) {element : Element}
    (helement : element ∈ chain.elements) :
    element ∈ elementsOf (entriesOf (sourceLines source)) := by
  obtain ⟨line, hentry⟩ := exists_entry_of_mem_chainsIn hchain
  exact List.mem_flatMap_of_mem hentry helement

/-- Their links are mentioned. -/
theorem exists_mention_of_mem_links (hchain : chain ∈ chainsIn source) {left right : Element}
    {arrow : Arrow} (hlink : (left, arrow, right) ∈ chain.links) :
    ∃ line, Mention.ofLink line left arrow right ∈ mentionsOf (entriesOf (sourceLines source)) := by
  obtain ⟨line, hentry⟩ := exists_entry_of_mem_chainsIn hchain
  have htwo : 2 ≤ chain.elements.length := by
    have hlength := chain.length_links
    have hpos := List.length_pos_of_mem hlink
    omega
  refine ⟨line, List.mem_flatMap_of_mem hentry ?_⟩
  show _ ∈ chain.mentions line
  rw [Chain.mentions_eq_map_links htwo]
  exact List.mem_map_of_mem hlink

/-- Their labels can be written. -/
theorem writable_of_mem_chainsIn (hchain : chain ∈ chainsIn source) : chain.Writable := by
  obtain ⟨line, hentry⟩ := exists_entry_of_mem_chainsIn hchain
  obtain ⟨text, -, hread⟩ := exists_read_of_mem_entriesOf hentry
  exact Statement.writable_of_read hread

section Compiled

variable (h : compile source = .ok g)

include h

theorem key_mem_nodeKeysOf (hchain : chain ∈ chainsIn source) {element : Element}
    (helement : element ∈ chain.elements) :
    element.key ∈ nodeKeysOf (entriesOf (sourceLines source)) := by
  obtain ⟨d, hrecords, -⟩ := exists_records_of_compile h
  exact List.mem_eraseDups.2
    (hrecords.key_mem_walkOf (mem_elementsOf_of_mem_chainsIn hchain helement))

/-- **Every element has a node**, and a literal is the text of its node. -/
theorem exists_nodeOf? (hchain : chain ∈ chainsIn source) {element : Element}
    (helement : element ∈ chain.elements) :
    ∃ node, g.nodeOf? element = some node ∧ g.node? node.id = some node ∧
      ∀ text, element.label = .literal text → node.value = text := by
  obtain ⟨-, -, hdepicts⟩ := exists_records_of_compile h
  obtain ⟨node, hnode, hindex⟩ := hdepicts.nodeOf?_eq_some (key_mem_nodeKeysOf h hchain helement)
  refine ⟨node, hnode, hindex, fun text htext => ?_⟩
  have hshows := hdepicts.shows _ node hindex element
    (mem_elementsOf_of_mem_chainsIn hchain helement) (Graph.key_of_nodeOf? hnode).symm
  simpa only [Element.Shows, htext] using hshows

/-- **Elements are one node exactly if they are written alike.** -/
theorem nodeOf?_eq_nodeOf?_iff (hchain : chain ∈ chainsIn source)
    (hchain' : chain' ∈ chainsIn source) {a b : Element} (ha : a ∈ chain.elements)
    (hb : b ∈ chain'.elements) :
    g.nodeOf? a = g.nodeOf? b ↔ a.enclosure = b.enclosure ∧ a.label = b.label := by
  obtain ⟨-, -, hdepicts⟩ := exists_records_of_compile h
  have hagree := (exists_compile_iff.1 ⟨g, h⟩).agree a (mem_elementsOf_of_mem_chainsIn hchain ha) b
    (mem_elementsOf_of_mem_chainsIn hchain' hb)
  rw [hdepicts.nodeOf?_eq_iff (key_mem_nodeKeysOf h hchain ha)]
  constructor
  · exact Element.eq_of_key_eq hagree ((writable_of_mem_chainsIn hchain).label a ha)
      ((writable_of_mem_chainsIn hchain').label b hb)
  · rintro ⟨henclosure, hlabel⟩
    rw [Element.key, Element.key, henclosure, hlabel]

/-- **A link of a chain is a link between the nodes of its elements.** -/
theorem exists_link_of_mem_links (hchain : chain ∈ chainsIn source) {left right : Element}
    {arrow : Arrow} (hlink : (left, arrow, right) ∈ chain.links) :
    ∃ node node', g.nodeOf? (arrow.ends left right).1 = some node ∧
      g.nodeOf? (arrow.ends left right).2 = some node' ∧ node'.id ∈ node.adjacents := by
  obtain ⟨-, -, hdepicts⟩ := exists_records_of_compile h
  obtain ⟨line, hmention⟩ := exists_mention_of_mem_links hchain hlink
  cases arrow with
  | forward => exact hdepicts.id_mem_adjacents hmention rfl rfl
  | backward => exact hdepicts.id_mem_adjacents hmention rfl rfl

end Compiled

end Source

/-- **The elements of a diagram are told apart by what is written.** Each element of a chain has a
node, and a literal is the text of its node. Two elements are one node exactly if their enclosures
and their labels are the same, so a literal and a variable never are, nor two literals whose names
only happen to be the same. The links lead from node to node. -/
theorem elements_are_told_apart {source : String} {g : Graph} (h : compile source = .ok g) :
    (∀ chain ∈ chainsIn source, ∀ element ∈ chain.elements, ∃ node,
      g.nodeOf? element = some node ∧ g.node? node.id = some node ∧
        ∀ text, element.label = .literal text → node.value = text) ∧
    (∀ chain ∈ chainsIn source, ∀ chain' ∈ chainsIn source,
      ∀ a ∈ chain.elements, ∀ b ∈ chain'.elements,
        (g.nodeOf? a = g.nodeOf? b ↔ a.enclosure = b.enclosure ∧ a.label = b.label)) ∧
    ∀ chain ∈ chainsIn source, ∀ left arrow right, (left, arrow, right) ∈ chain.links →
      ∃ node node', g.nodeOf? (arrow.ends left right).1 = some node ∧
        g.nodeOf? (arrow.ends left right).2 = some node' ∧ node'.id ∈ node.adjacents :=
  ⟨fun _ hchain _ helement => exists_nodeOf? h hchain helement,
    fun _ hchain _ hchain' _ ha _ hb => nodeOf?_eq_nodeOf?_iff h hchain hchain' ha hb,
    fun _ hchain _ _ _ hlink => exists_link_of_mem_links h hchain hlink⟩

/-- Three elements read `Hi`, and no two of them are one node. -/
theorem elements_are_told_apart_same_word :
    ∃ g, compile "Hi := \"Hi\"\n[Hi] -> [\"Hi\"] -> (\"Hi\")" = .ok g ∧
      g.nodeOf? ⟨.rectangle, .reference "Hi"⟩ ≠ g.nodeOf? ⟨.rectangle, .literal "Hi"⟩ ∧
      g.nodeOf? ⟨.rectangle, .literal "Hi"⟩ ≠ g.nodeOf? ⟨.roundedRectangle, .literal "Hi"⟩ := by
  let chain : Chain := ⟨[⟨.rectangle, .reference "Hi"⟩, ⟨.rectangle, .literal "Hi"⟩,
    ⟨.roundedRectangle, .literal "Hi"⟩], [.forward, .forward]⟩
  have hlines : sourceLines "Hi := \"Hi\"\n[Hi] -> [\"Hi\"] -> (\"Hi\")" =
      [⟨1, 0, "Hi := \"Hi\"".toList⟩, ⟨2, 0, "[Hi] -> [\"Hi\"] -> (\"Hi\")".toList⟩] := by rfl
  have hfirst : Statement.read "Hi := \"Hi\"".toList = .ok (.declaration ⟨"Hi", "Hi"⟩) := by cbv
  have hgaps : ∀ gap ∈ ([[], [], [], [' '], [' '], [], [], [' '], [' ']] : List Line),
      Blanks gap := by simp [Blanks, isBlank]
  have hread : Chain.read "[Hi] -> [\"Hi\"] -> (\"Hi\")".toList = .ok chain :=
    Chain.read_eq_ok_iff.2 ⟨⟨rfl, by simp [chain, Label.Writable, Line.IsName, Line.Quotable]⟩,
      spelled_layOut hgaps⟩
  obtain ⟨g, hg⟩ : ∃ g, compile "Hi := \"Hi\"\n[Hi] -> [\"Hi\"] -> (\"Hi\")" = .ok g := by
    rw [compile, hlines]
    simp only [List.foldlM_cons, Draft.readLine, hfirst, Statement.read_eq_chain_iff.2 hread]
    exact ⟨_, rfl⟩
  have hchain : chain ∈ chainsIn "Hi := \"Hi\"\n[Hi] -> [\"Hi\"] -> (\"Hi\")" :=
    List.mem_filterMap.2 ⟨"[Hi] -> [\"Hi\"] -> (\"Hi\")".toList, List.mem_cons_of_mem _ (.head _),
      Line.chain?_eq_some_iff.2 ⟨_, by rfl, hread⟩⟩
  have hsame := (elements_are_told_apart hg).2.1 chain hchain chain hchain
  refine ⟨g, hg, fun heq => ?_, fun heq => ?_⟩
  · have hlabel := ((hsame _ (by simp [chain]) _ (by simp [chain])).1 heq).2
    cases hlabel
  · have henclosure := ((hsame _ (by simp [chain]) _ (by simp [chain])).1 heq).1
    cases henclosure

end ChainDiagram
