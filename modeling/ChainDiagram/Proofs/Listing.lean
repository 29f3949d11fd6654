import ChainDiagram.Graph.Listing
import ChainDiagram.Proofs.Depiction
import ChainDiagram.Proofs.Lines

/-!
# The listing tells graphs apart

A listing shows the texts of a graph as they are, between marks that the texts may hold as well: a
value may contain an arrow, a comma with the name of a shape, or the words above the two parts. A
graph can be told from its listing all the same, if no text breaks a line and no name holds a blank.
Then the listing falls apart into its lines; the only empty line stands between the two parts; and
in a line each mark is found from a side where nothing else can be taken for it. The id ends with
the first colon, the name with the next blank, and the shape begins behind the last blank, so that
whatever is left in the middle is the value.

What is compiled is such a graph: names are made of letters or digits, and a value comes from inside
of one line of the source.

## What is here

* `eq_of_unlines_eq`: a text of lines falls apart into its lines.
* `Node.Listable`: the condition under which the line of a node can be taken apart, and
  `Node.Listable.eq_of_listing_eq`, `Node.eq_of_linkListing_eq`: what its two lines tell.
* `Graph.Listable.eq_of_listing_eq`: a graph can be told from its listing.
* `listable_of_compile`: the graphs that are compiled fulfil the condition.
-/

set_option autoImplicit false

namespace ChainDiagram

/-! ## Taking texts apart -/

/-- What stands in front of the first mark can be told from what stands behind it. -/
theorem append_cons_inj_of_not_mem {α : Type} {mark : α} {front front' back back' : List α}
    (hfront : mark ∉ front) (hfront' : mark ∉ front')
    (h : front ++ mark :: back = front' ++ mark :: back') : front = front' ∧ back = back' := by
  -- otherwise one of the two fronts reaches beyond the other, and over its mark
  rcases List.append_eq_append_iff.1 h with ⟨more, rfl, hmore⟩ | ⟨more, rfl, hmore⟩
  all_goals
    cases more with
    | nil => exact ⟨by simp, by simpa [eq_comm] using hmore⟩
    | cons a more =>
      obtain ⟨rfl, -⟩ := List.cons.inj hmore
      simp at hfront hfront'

/-- Parts that are ended by a mark each can be told apart. -/
theorem eq_of_flatMap_append_cons_eq {α : Type} {mark : α} {gap : List α}
    {parts parts' : List (List α)} (hparts : ∀ part ∈ parts, mark ∉ part)
    (hparts' : ∀ part ∈ parts', mark ∉ part)
    (h : parts.flatMap (· ++ mark :: gap) = parts'.flatMap (· ++ mark :: gap)) :
    parts = parts' := by
  induction parts generalizing parts' with
  | nil =>
    cases parts' with
    | nil => rfl
    | cons part' parts' => simp at h
  | cons part parts ih =>
    cases parts' with
    | nil => simp at h
    | cons part' parts' =>
      rw [List.forall_mem_cons] at hparts hparts'
      simp only [List.flatMap_cons, List.append_assoc, List.cons_append] at h
      obtain ⟨rfl, hrest⟩ := append_cons_inj_of_not_mem hparts.1 hparts'.1 h
      exact congrArg (part :: ·) (ih hparts.2 hparts'.2 (List.append_cancel_left hrest))

/-- With one mark more, parts between marks are parts that are ended by a mark each. -/
theorem intercalate_append_eq_flatMap {α : Type} (sep : List α) {parts : List (List α)}
    (hne : parts ≠ []) : sep.intercalate parts ++ sep = parts.flatMap (· ++ sep) := by
  induction parts with
  | nil => exact absurd rfl hne
  | cons part parts ih =>
    cases parts with
    | nil => simp
    | cons next parts =>
      rw [List.intercalate_cons_cons, List.append_assoc, ih (List.cons_ne_nil next parts)]
      rfl

/-- Parts between marks can be told apart, if none of them is empty. -/
theorem eq_of_intercalate_cons_eq {α : Type} {mark : α} {gap : List α}
    {parts parts' : List (List α)} (hparts : ∀ part ∈ parts, mark ∉ part ∧ part ≠ [])
    (hparts' : ∀ part ∈ parts', mark ∉ part ∧ part ≠ [])
    (h : (mark :: gap).intercalate parts = (mark :: gap).intercalate parts') : parts = parts' := by
  have hnil : ∀ parts : List (List α), (∀ part ∈ parts, mark ∉ part ∧ part ≠ []) →
      (mark :: gap).intercalate parts = [] → parts = [] := by
    intro parts hparts h
    cases parts with
    | nil => rfl
    | cons part parts =>
      cases parts <;> simp_all
  by_cases hempty : parts = []
  · subst hempty
    exact (hnil parts' hparts' h.symm).symm
  · have hempty' : parts' ≠ [] := by
      rintro rfl
      exact hempty (hnil parts hparts h)
    have hflat := congrArg (· ++ mark :: gap) h
    simp only [intercalate_append_eq_flatMap _ hempty,
      intercalate_append_eq_flatMap _ hempty'] at hflat
    exact eq_of_flatMap_append_cons_eq (fun part hpart => (hparts part hpart).1)
      (fun part hpart => (hparts' part hpart).1) hflat

/-- **A text of lines falls apart into its lines.** -/
theorem eq_of_unlines_eq {lines lines' : List String} (hlines : ∀ line ∈ lines, '\n' ∉ line.toList)
    (hlines' : ∀ line ∈ lines', '\n' ∉ line.toList) (h : unlines lines = unlines lines') :
    lines = lines' := by
  have hchars : ∀ lines : List String,
      (unlines lines).toList = (lines.map String.toList).flatMap (· ++ ['\n']) := by
    intro lines
    simp [unlines, String.toList_join, List.flatMap_map]
  have hmap : lines.map String.toList = lines'.map String.toList := by
    refine eq_of_flatMap_append_cons_eq (by simpa using hlines) (by simpa using hlines')
      ((hchars lines).symm.trans (Eq.trans ?_ (hchars lines')))
    rw [h]
  exact List.map_injective_iff.2 (fun _ _ => String.toList_injective) hmap

theorem mem_of_mem_intercalate {α : Type} {a : α} {sep : List α} {parts : List (List α)}
    (h : a ∈ sep.intercalate parts) : a ∈ sep ∨ ∃ part ∈ parts, a ∈ part := by
  by_cases hempty : parts = []
  · subst hempty
    cases h
  · have hmem := List.mem_append_left sep h
    rw [intercalate_append_eq_flatMap sep hempty] at hmem
    obtain ⟨part, hpart, hmem⟩ := List.mem_flatMap.1 hmem
    rcases List.mem_append.1 hmem with hmem | hmem
    · exact .inr ⟨part, hpart, hmem⟩
    · exact .inl hmem

/-! ## Numbers -/

theorem not_mem_toDigits {n : Nat} {c : Char} (hc : ¬c.isDigit) : c ∉ Nat.toDigits 10 n :=
  fun hmem => hc (Nat.isDigit_of_mem_toDigits (by decide) (by decide) hmem)

theorem toDigits_injective : Function.Injective (Nat.toDigits 10) :=
  Function.LeftInverse.injective Decimal.ofDigits_toDigits

/-! ## Lines of a listing -/

/-- The texts of a node that can be told from its line. -/
structure Node.Listable (node : Node) : Prop where
  /-- The name ends where a blank stands behind it. -/
  varname : ∀ c ∈ node.varname.toList, c.isAlphanum
  /-- The value stands in one line. -/
  value : '\n' ∉ node.value.toList

/-- A graph all of whose nodes can be told from their lines. -/
def Graph.Listable (g : Graph) : Prop := ∀ node ∈ g.nodes.toList, node.Listable

theorem Enclosure.not_mem_name (e : Enclosure) : ' ' ∉ e.name.toList ∧ '\n' ∉ e.name.toList := by
  cases e <;> decide

theorem Enclosure.name_injective {e e' : Enclosure} (h : e.name = e'.name) : e = e' := by
  cases e <;> cases e' <;> first | rfl | simp [name] at h

namespace Node

variable {node node' : Node}

theorem Listable.not_mem_varname (h : node.Listable) {c : Char} (hc : ¬c.isAlphanum) :
    c ∉ node.varname.toList := fun hmem => hc (h.varname c hmem)

theorem toList_listing (node : Node) :
    node.listing.toList = Nat.toDigits 10 node.id ++ ':' :: ' ' ::
      (node.varname.toList ++ ' ' :: '-' :: '>' :: ' ' ::
        (node.value.toList ++ ',' :: ' ' :: node.enclosure.name.toList)) := by
  simp [listing]

theorem toList_linkListing (node : Node) :
    node.linkListing.toList = Nat.toDigits 10 node.id ++ ' ' :: '-' :: '>' :: ' ' :: '[' ::
      ([',', ' '].intercalate (node.adjacents.map (Nat.toDigits 10)) ++ [']']) := by
  have hdigits : String.toList ∘ (toString : Nat → String) = Nat.toDigits 10 :=
    funext fun n => by simp
  simp [linkListing, String.toList_intercalate, hdigits]

/-- **The first line of a node tells all but its links.** -/
theorem Listable.eq_of_listing_eq (hnode : node.Listable) (hnode' : node'.Listable)
    (h : node.listing = node'.listing) :
    node.id = node'.id ∧ node.varname = node'.varname ∧ node.value = node'.value ∧
      node.enclosure = node'.enclosure := by
  have hchars := congrArg String.toList h
  rw [toList_listing, toList_listing] at hchars
  obtain ⟨hid, hchars⟩ := append_cons_inj_of_not_mem (not_mem_toDigits (by decide))
    (not_mem_toDigits (by decide)) hchars
  obtain ⟨hvarname, hchars⟩ := append_cons_inj_of_not_mem (hnode.not_mem_varname (by decide))
    (hnode'.not_mem_varname (by decide)) (List.cons.inj hchars).2
  simp only [List.cons.injEq, true_and] at hchars
  -- what is left is read from its end
  have hreverse : node.enclosure.name.toList.reverse ++ ' ' :: ',' :: node.value.toList.reverse =
      node'.enclosure.name.toList.reverse ++ ' ' :: ',' :: node'.value.toList.reverse := by
    simpa using congrArg List.reverse hchars
  obtain ⟨hname, hvalue⟩ := append_cons_inj_of_not_mem
    (by simpa using node.enclosure.not_mem_name.1)
    (by simpa using node'.enclosure.not_mem_name.1) hreverse
  refine ⟨toDigits_injective hid, String.toList_injective hvarname,
    String.toList_injective ?_, Enclosure.name_injective (String.toList_injective ?_)⟩
  · exact List.reverse_injective (List.cons.inj hvalue).2
  · exact List.reverse_injective hname

/-- **The second line of a node tells its links.** A number is not written as nothing, so no links
are not taken for one. -/
theorem eq_of_linkListing_eq (h : node.linkListing = node'.linkListing) :
    node.adjacents = node'.adjacents := by
  have hparts : ∀ ns : List Nat, ∀ part ∈ ns.map (Nat.toDigits 10), ',' ∉ part ∧ part ≠ [] := by
    intro ns part hpart
    obtain ⟨n, -, rfl⟩ := List.mem_map.1 hpart
    exact ⟨not_mem_toDigits (by decide), Nat.toDigits_ne_nil⟩
  have hchars := congrArg String.toList h
  rw [toList_linkListing, toList_linkListing] at hchars
  obtain ⟨-, hchars⟩ := append_cons_inj_of_not_mem (not_mem_toDigits (by decide))
    (not_mem_toDigits (by decide)) hchars
  simp only [List.cons.injEq, true_and] at hchars
  exact List.map_injective_iff.2 toDigits_injective
    (eq_of_intercalate_cons_eq (hparts _) (hparts _) (List.append_cancel_right hchars))

/-- Both lines of a node tell everything. -/
theorem Listable.eq_of_lines_eq (hnode : node.Listable) (hnode' : node'.Listable)
    (h : node.listing = node'.listing) (hlinks : node.linkListing = node'.linkListing) :
    node = node' := by
  obtain ⟨hid, hvarname, hvalue, henclosure⟩ := hnode.eq_of_listing_eq hnode' h
  have hadjacents := eq_of_linkListing_eq hlinks
  cases node
  cases node'
  simp_all

/-! Each is one line, and the first is not empty. -/

theorem Listable.not_mem_listing (h : node.Listable) : '\n' ∉ node.listing.toList := by
  have hid : '\n' ∉ Nat.toDigits 10 node.id := not_mem_toDigits (by decide)
  have hvarname : '\n' ∉ node.varname.toList := h.not_mem_varname (by decide)
  simp [toList_listing, hid, hvarname, node.enclosure.not_mem_name.2, h.value]

theorem not_mem_linkListing (node : Node) : '\n' ∉ node.linkListing.toList := by
  have hdigits : ∀ n : Nat, '\n' ∉ Nat.toDigits 10 n := fun n => not_mem_toDigits (by decide)
  have htargets : '\n' ∉ [',', ' '].intercalate (node.adjacents.map (Nat.toDigits 10)) := by
    intro hmem
    rcases mem_of_mem_intercalate hmem with hmem | ⟨part, hpart, hmem⟩
    · simp at hmem
    · obtain ⟨n, -, rfl⟩ := List.mem_map.1 hpart
      exact hdigits n hmem
  simp [toList_linkListing, hdigits, htargets]

theorem listing_ne_empty (node : Node) : node.listing ≠ "" := by
  intro h
  have hchars := congrArg String.toList h
  simp [toList_listing] at hchars

end Node

/-! ## Listings -/

/-- Nodes are told apart by their lines. -/
theorem eq_of_map_listing_eq {nodes nodes' : List Node} (hnodes : ∀ node ∈ nodes, node.Listable)
    (hnodes' : ∀ node ∈ nodes', node.Listable)
    (h : nodes.map Node.listing = nodes'.map Node.listing)
    (hlinks : nodes.map Node.linkListing = nodes'.map Node.linkListing) : nodes = nodes' := by
  induction nodes generalizing nodes' with
  | nil => simpa [eq_comm] using h
  | cons node nodes ih =>
    cases nodes' with
    | nil => simp at h
    | cons node' nodes' =>
      rw [List.forall_mem_cons] at hnodes hnodes'
      simp only [List.map_cons, List.cons.injEq] at h hlinks
      rw [hnodes.1.eq_of_lines_eq hnodes'.1 h.1 hlinks.1, ih hnodes.2 hnodes'.2 h.2 hlinks.2]

/-- **A graph can be told from its listing.** The empty line between the two parts is the only
one. -/
theorem Graph.Listable.eq_of_listing_eq {g g' : Graph} (hg : g.Listable) (hg' : g'.Listable)
    (h : g.listing = g'.listing) : g = g' := by
  have hline : ∀ g : Graph, g.Listable → ∀ line ∈ "NODES" :: g.nodes.toList.map Node.listing ++
      "" :: "LINKS" :: g.nodes.toList.map Node.linkListing, '\n' ∉ line.toList := by
    intro g hg line hline
    simp only [List.cons_append, List.mem_cons, List.mem_append, List.mem_map] at hline
    rcases hline with rfl | ⟨node, hnode, rfl⟩ | rfl | rfl | ⟨node, -, rfl⟩
    · decide
    · exact (hg node hnode).not_mem_listing
    · decide
    · decide
    · exact node.not_mem_linkListing
  have hempty : ∀ g : Graph, "" ∉ "NODES" :: g.nodes.toList.map Node.listing := by
    intro g hmem
    rcases List.mem_cons.1 hmem with hmem | hmem
    · simp at hmem
    · obtain ⟨node, -, hnode⟩ := List.mem_map.1 hmem
      exact node.listing_ne_empty hnode
  obtain ⟨hnodes, hlinks⟩ := append_cons_inj_of_not_mem (hempty g) (hempty g')
    (eq_of_unlines_eq (hline g hg) (hline g' hg') h)
  have hlist := eq_of_map_listing_eq hg hg' (List.cons.inj hnodes).2 (List.cons.inj hlinks).2
  obtain ⟨nodes⟩ := g
  obtain ⟨nodes'⟩ := g'
  exact congrArg Graph.mk (Array.toList_inj.1 hlist)

/-! ## What is compiled -/

/-- A part of a text that is split holds no separator. -/
theorem not_mem_of_mem_splitOn {sep : Char} {text part : List Char} (h : part ∈ text.splitOn sep) :
    sep ∉ part := by
  induction text generalizing part with
  | nil =>
    obtain rfl := List.mem_singleton.1 (List.splitOn_nil sep ▸ h)
    exact List.not_mem_nil
  | cons c text ih =>
    rw [List.splitOn_cons_eq_if_modifyHead] at h
    split at h
    · rcases List.mem_cons.1 h with rfl | h
      · exact List.not_mem_nil
      · exact ih h
    · rename_i hc
      obtain ⟨first, parts, hsplit⟩ := List.exists_cons_of_ne_nil (List.splitOn_ne_nil sep text)
      rw [hsplit, List.modifyHead_cons] at h
      rcases List.mem_cons.1 h with rfl | h
      · have hne : sep ≠ c := fun heq => hc (beq_iff_eq.2 heq.symm)
        exact List.not_mem_cons_of_ne_of_not_mem hne (ih (hsplit ▸ List.mem_cons_self))
      · exact ih (hsplit ▸ List.mem_cons_of_mem first h)

/-- What a line says stands between two line feeds. -/
theorem not_mem_text_of_mem_sourceLines {source : String} {line : SourceLine}
    (h : line ∈ sourceLines source) : '\n' ∉ line.text := by
  rw [sourceLines, significantLines_eq_filterMap] at h
  obtain ⟨⟨raw, number⟩, hraw, hline⟩ := List.mem_filterMap.1 h
  have hmem : raw ∈ source.toList.splitOn '\n' := List.fst_mem_of_mem_zipIdx hraw
  obtain ⟨front, back, -, -, htrim⟩ := exists_eq_append_trim raw
  obtain ⟨comment, hcomment⟩ := Line.exists_uncommented_append false (trim raw)
  simp only [SourceLine.ofRaw?] at hline
  split at hline
  · cases hline
  · obtain rfl := Option.some.inj hline
    intro htext
    refine not_mem_of_mem_splitOn hmem ?_
    rw [htrim, ← hcomment]
    exact List.mem_append_right front
      (List.mem_append_left back (List.mem_append_left comment htext))

/-- The tokens stand in the line. -/
theorem Spelled.mem_of_mem_token {tokens : List Line} {line token : Line} (h : Spelled tokens line)
    (htoken : token ∈ tokens) {c : Char} (hc : c ∈ token) : c ∈ line := by
  induction h with
  | done hgap => cases htoken
  | token hgap hrest ih =>
    rcases List.mem_cons.1 htoken with rfl | htoken
    · exact List.mem_append_right _ (List.mem_append_left _ hc)
    · exact List.mem_append_right _ (List.mem_append_right _ (ih htoken))

/-- The labels of a chain are among its tokens. -/
theorem Chain.token_mem_tokens {chain : Chain} (h : chain.Writable) {element : Element}
    (helement : element ∈ chain.elements) : element.label.token ∈ chain.tokens := by
  have hself : ∀ element : Element, element.label.token ∈ element.tokens := by
    simp [Element.tokens]
  obtain ⟨first, links, rfl⟩ := Chain.exists_eq_ofLinks h.length_elements
  rw [Chain.tokens_ofLinks]
  rcases List.mem_cons.1 helement with rfl | helement
  · exact List.mem_append_left _ (hself _)
  · obtain ⟨⟨arrow, element⟩, hlink, rfl⟩ := List.mem_map.1 helement
    exact List.mem_append_right _
      (List.mem_flatMap_of_mem hlink (List.mem_cons_of_mem _ (hself element)))

section Compiled

variable {source : String}

/-- No token of a statement holds a line feed. -/
theorem not_mem_token_of_mem_entriesOf {entry : Entry}
    (hentry : entry ∈ entriesOf (sourceLines source)) {token : Line}
    (htoken : token ∈ entry.statement.tokens) : '\n' ∉ token := by
  obtain ⟨line, hline, hread⟩ := exists_read_of_mem_entriesOf hentry
  exact fun hc => not_mem_text_of_mem_sourceLines hline
    ((Statement.read_eq_ok_iff.1 hread).2.mem_of_mem_token htoken hc)

/-- What is shown was written in one line. -/
theorem not_mem_of_shows {element : Element}
    (helement : element ∈ elementsOf (entriesOf (sourceLines source))) {value : String}
    (h : element.Shows (declarationsOf (entriesOf (sourceLines source))) value) :
    '\n' ∉ value.toList := by
  have hquoted : '\n' ∉ Line.quoted value → '\n' ∉ value.toList :=
    fun h hc => h (List.mem_cons_of_mem _ (List.mem_append_left _ hc))
  rw [Element.Shows] at h
  split at h
  · rename_i text hlabel
    subst h
    obtain ⟨⟨line, statement⟩, hentry, hmem⟩ := List.mem_flatMap.1 helement
    cases statement with
    | declaration d => cases hmem
    | chain c =>
      obtain ⟨_, -, hread⟩ := exists_read_of_mem_entriesOf hentry
      have htoken := Chain.token_mem_tokens (Statement.writable_of_read hread) hmem
      rw [hlabel] at htoken
      exact hquoted (not_mem_token_of_mem_entriesOf hentry htoken)
  · rename_i name hlabel
    obtain ⟨entry, hentry, hdeclaration⟩ := exists_entry_of_mem_declarationsOf h
    refine hquoted (not_mem_token_of_mem_entriesOf hentry ?_)
    rw [hdeclaration]
    simp [Statement.tokens, Declaration.tokens]

/-- The name of a literal is a number, and the name of a variable is a word. -/
theorem isAlphanum_of_mem_name {element : Element} (h : element.label.Writable) {c : Char}
    (hc : c ∈ element.key.name.toList) : c.isAlphanum := by
  rw [Char.isAlphanum, Bool.or_eq_true]
  rw [Element.key] at hc
  split at hc
  · exact .inr (isDigit_of_mem_nameOfLiteral hc)
  · rename_i name hlabel
    rw [hlabel] at h
    exact .inl (h.2 c hc)

/-- **What is compiled can be told from its listing.** -/
theorem listable_of_compile {g : Graph} (h : compile source = .ok g) : g.Listable := by
  intro node hnode
  obtain ⟨index, hindex⟩ := List.mem_iff_getElem?.1 hnode
  rw [Array.getElem?_toList] at hindex
  obtain ⟨d, hrecords, hdepicts⟩ := exists_records_of_compile h
  obtain ⟨element, helement, hkey⟩ := hdepicts.exists_element hindex
  obtain ⟨entry, hentry, hmem⟩ := List.mem_flatMap.1 helement
  refine ⟨fun c hc => ?_, not_mem_of_shows helement (hdepicts.shows index node hindex element
    helement hkey)⟩
  have hname : node.varname = element.key.name := congrArg NodeKey.name hkey.symm
  exact isAlphanum_of_mem_name ((hrecords.writable entry hentry).label hmem) (hname ▸ hc)

end Compiled

/-- **The listing of a compiled graph is lossless.** Two sources that are compiled to graphs with
the same listing are compiled to the same graph: the ids, the names, the values, the enclosures and
the links in their order are the same. -/
theorem listing_is_lossless {source source' : String} {g g' : Graph} (h : compile source = .ok g)
    (h' : compile source' = .ok g') (hlisting : g.listing = g'.listing) : g = g' :=
  (listable_of_compile h).eq_of_listing_eq (listable_of_compile h') hlisting

/-- One link, written from the left and from the right, between texts that read like marks. -/
theorem listing_is_lossless_marks :
    ∃ g g', compile "[\" -> x, other\"] -> (\"NODES\")" = .ok g ∧
      compile "(\"NODES\") <- [\" -> x, other\"]" = .ok g' ∧ g.listing = g'.listing ∧ g = g' := by
  have hgaps : ∀ gap ∈ ([[], [], [], [' '], [' ']] : List Line), Blanks gap := by
    simp [Blanks, isBlank]
  have hlines : sourceLines "[\" -> x, other\"] -> (\"NODES\")" =
      [⟨1, 0, "[\" -> x, other\"] -> (\"NODES\")".toList⟩] := by rfl
  have hlines' : sourceLines "(\"NODES\") <- [\" -> x, other\"]" =
      [⟨1, 0, "(\"NODES\") <- [\" -> x, other\"]".toList⟩] := by rfl
  have hread : Chain.read "[\" -> x, other\"] -> (\"NODES\")".toList =
      .ok ⟨[⟨.rectangle, .literal " -> x, other"⟩, ⟨.roundedRectangle, .literal "NODES"⟩],
        [.forward]⟩ :=
    Chain.read_eq_ok_iff.2 ⟨⟨rfl, by simp [Label.Writable, Line.Quotable]⟩, spelled_layOut hgaps⟩
  have hread' : Chain.read "(\"NODES\") <- [\" -> x, other\"]".toList =
      .ok ⟨[⟨.roundedRectangle, .literal "NODES"⟩, ⟨.rectangle, .literal " -> x, other"⟩],
        [.backward]⟩ :=
    Chain.read_eq_ok_iff.2 ⟨⟨rfl, by simp [Label.Writable, Line.Quotable]⟩, spelled_layOut hgaps⟩
  have h : compile "[\" -> x, other\"] -> (\"NODES\")" =
      .ok ⟨#[⟨0, "10350349851", " -> x, other", .rectangle, [1]⟩,
        ⟨1, "63505564652", "NODES", .roundedRectangle, []⟩]⟩ := by
    rw [compile, hlines]
    simp only [List.foldlM_cons, Draft.readLine, Statement.read_eq_chain_iff.2 hread]
    rfl
  have h' : compile "(\"NODES\") <- [\" -> x, other\"]" =
      .ok ⟨#[⟨0, "10350349851", " -> x, other", .rectangle, [1]⟩,
        ⟨1, "63505564652", "NODES", .roundedRectangle, []⟩]⟩ := by
    rw [compile, hlines']
    simp only [List.foldlM_cons, Draft.readLine, Statement.read_eq_chain_iff.2 hread']
    rfl
  exact ⟨_, _, h, h', rfl, listing_is_lossless h h' rfl⟩

end ChainDiagram
