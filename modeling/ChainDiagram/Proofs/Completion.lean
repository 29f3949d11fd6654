import ChainDiagram.Proofs.LinkByLink
import ChainDiagram.Proofs.WellFormed

/-!
# Drafts that can be completed

A draft ends with a check: every variable that is used has to be bound. The drawing relies on more
than the check looks at. It needs a binding for every key in the link table, whether a variable or a
literal has put it there, and it links ids that have to be those of nodes.

Nothing of that can go wrong behind the check. This does not depend on what the statements are, or
on whether they were refused. A chain that is refused has bound the literals to the left of the one
that collides and used the variables there, and draws no link.

## What is here

* `Draft.after`: the draft after some statements, with what the refused ones leave behind.
* `Draft.Accounts`: a name is bound, or its use is remembered, so that the check looks at it.
  `Draft.Accounted`: all names in the link table are of that kind. It survives every statement
  (`Draft.Accounted.add`).
* `Draft.AtRow`, `Draft.AtLink`: the graphs that the drawing comes by.
* `check_guards_the_drawing`: if the check succeeds, so does each step of the drawing.
-/

set_option autoImplicit false

namespace ChainDiagram

/-- The name of an element's key is bound by the element, or it is the variable that it uses. -/
theorem Element.key_name_eq_iff {element : Element} {name : String} :
    element.key.name = name ↔
      (∃ value, element.binding? = some (name, value)) ∨ element.label = .reference name := by
  obtain ⟨enclosure, label⟩ := element
  cases label <;> simp [Element.binding?, Element.key]

namespace Draft

/-! ## Statements, refused or not -/

/-- The draft after some statements. One that is refused leaves its traces, and the next one is
taken. -/
def after (entries : List Entry) : Draft :=
  entries.foldl (fun d entry => (d.add entry.line entry.statement).2) .empty

theorem after_concat (entries : List Entry) (entry : Entry) :
    after (entries ++ [entry]) = ((after entries).add entry.line entry.statement).2 := by
  rw [after, List.foldl_concat, after]

/-- An element that is refused changes nothing. -/
theorem addElement_of_error {d d' : Draft} {line : Nat} {element : Element} {e : Diagnostic}
    (h : d.addElement line element = (.error e, d')) : d' = d := by
  cases hlabel : element.label with
  | reference name => simp only [addElement, hlabel, Prod.mk.injEq, reduceCtorEq, false_and] at h
  | literal text =>
    rw [addElement_literal hlabel] at h
    split at h
    · cases h
    · exact (Prod.mk.inj h).2.symm

/-- **Elements are taken up to the first that is refused.** -/
theorem exists_took_addElements (d : Draft) (line : Nat) (elements : List Element) :
    ∃ taken, taken <+: elements ∧ d.Took taken (d.addElements line elements).2 ∧
      (d.addElements line elements).2.links = d.links ∧
      ((d.addElements line elements).1 = .ok () → taken = elements) := by
  induction elements generalizing d with
  | nil => exact ⟨[], List.prefix_refl [], d.took_nil, rfl, fun _ => rfl⟩
  | cons element rest ih =>
    rw [addElements]
    rcases d.addElement_cases line element with ⟨d', hd', htook, hlinks⟩ | ⟨text, d', hd', -⟩
    · obtain ⟨taken, hprefix, htook', hlinks', hall⟩ := ih d'
      rw [hd']
      exact ⟨element :: taken, List.cons_prefix_cons.2 ⟨rfl, hprefix⟩, htook.trans htook',
        hlinks'.trans hlinks, fun h => congrArg (element :: ·) (hall h)⟩
    · rw [hd', addElement_of_error hd']
      exact ⟨[], List.nil_prefix, d.took_nil, rfl, fun h => by cases h⟩

/-! ## Names that are accounted for -/

/-- A name is bound, or it is among the uses that are checked at the end. -/
def Accounts (d : Draft) (name : String) : Prop :=
  (d.bindings.value? name).isSome ∨ name ∈ d.uses.map Prod.fst

/-- **A draft accounts for what it takes**, and for nothing else than before. -/
theorem Took.accounts_iff {d d' : Draft} {elements : List Element} (h : d.Took elements d')
    {name : String} :
    d'.Accounts name ↔ d.Accounts name ∨ ∃ element ∈ elements, element.key.name = name := by
  simp only [Accounts, Option.isSome_iff_exists, h.value?_eq_some_iff, h.mem_uses_iff,
    Bindings.Gives, Element.key_name_eq_iff, exists_or, and_or_left]
  rw [exists_comm]
  simp only [exists_and_left]
  exact or_or_or_comm

/-- A declaration takes no binding away. -/
theorem Accounts.addDeclaration {d : Draft} {name : String} (h : d.Accounts name) (line : Nat)
    (declaration : Declaration) : (d.addDeclaration line declaration).2.Accounts name := by
  rw [Draft.addDeclaration, Bindings.bindNew?]
  cases hvalue : d.bindings.value? declaration.name with
  | some value => exact h
  | none =>
    refine h.imp_left fun hbound => ?_
    rw [Bindings.value?_bind hvalue]
    split
    · exact Option.isSome_some
    · exact hbound

theorem links_addDeclaration (d : Draft) (line : Nat) (declaration : Declaration) :
    (d.addDeclaration line declaration).2.links = d.links := by
  rw [addDeclaration]
  split <;> rfl

/-- The links of a draft are those of the mentions, and every key in them has a name that is
accounted for. -/
structure Accounted (d : Draft) (mentions : List Mention) : Prop where
  links_eq : d.links = .ofMentions mentions
  accounts : ∀ key ∈ walkOf mentions, d.Accounts key.name

theorem accounted_empty : empty.Accounted [] := ⟨rfl, fun _ hkey => nomatch hkey⟩

section Accounted

variable {d : Draft} {mentions : List Mention}

theorem Accounted.addDeclaration (h : d.Accounted mentions) (line : Nat)
    (declaration : Declaration) : (d.addDeclaration line declaration).2.Accounted mentions :=
  ⟨(d.links_addDeclaration line declaration).trans h.links_eq,
    fun key hkey => (h.accounts key hkey).addDeclaration line declaration⟩

/-- A chain draws its links after it has taken all its elements, or no link at all. -/
theorem Accounted.addChain (h : d.Accounted mentions) (line : Nat) (chain : Chain) :
    ∃ more, (d.addChain line chain).2.Accounted (mentions ++ more) := by
  obtain ⟨taken, -, htook, hlinks, hall⟩ := d.exists_took_addElements line chain.elements
  have hold : ∀ key ∈ walkOf mentions, (d.addElements line chain.elements).2.Accounts key.name :=
    fun key hkey => htook.accounts_iff.2 (.inl (h.accounts key hkey))
  rw [Draft.addChain]
  rcases hadd : d.addElements line chain.elements with ⟨e | _, d'⟩
  · -- The chain is refused, and no link is drawn.
    rw [hadd] at hlinks hold
    refine ⟨[], ?_⟩
    rw [List.append_nil]
    exact ⟨hlinks.trans h.links_eq, hold⟩
  · -- All its elements have been taken, and its links lead between these.
    rw [hadd] at htook hlinks hall hold
    obtain rfl := hall rfl
    refine ⟨chain.mentions line, ?_, fun key hkey => ?_⟩
    · show Draft.addLinks line d'.links _ _ = _
      rw [addLinks_eq_foldl, hlinks, h.links_eq, LinkTable.ofMentions, LinkTable.ofMentions,
        List.foldl_append]
    · obtain ⟨mention, hmention, hinvolves⟩ := mem_walkOf_iff.1 hkey
      rcases List.mem_append.1 hmention with hmention | hmention
      · exact hold key (mem_walkOf_iff.2 ⟨mention, hmention, hinvolves⟩)
      · obtain ⟨element, helement, rfl⟩ := Chain.exists_element_of_involves hmention hinvolves
        exact htook.accounts_iff.2 (.inr ⟨element, helement, rfl⟩)

/-- **Every statement keeps the names accounted for**, also one that is refused. -/
theorem Accounted.add (h : d.Accounted mentions) (line : Nat) (statement : Statement) :
    ∃ more, (d.add line statement).2.Accounted (mentions ++ more) := by
  cases statement with
  | declaration declaration =>
    refine ⟨[], ?_⟩
    rw [List.append_nil]
    exact h.addDeclaration line declaration
  | chain chain => exact h.addChain line chain

end Accounted

/-- So they are after any statements. -/
theorem exists_accounted_after (entries : List Entry) :
    ∃ mentions, (after entries).Accounted mentions := by
  induction entries using List.reverseRecOn with
  | nil => exact ⟨[], accounted_empty⟩
  | append_singleton entries entry ih =>
    obtain ⟨mentions, hmentions⟩ := ih
    rw [after_concat]
    obtain ⟨more, hmore⟩ := hmentions.add entry.line entry.statement
    exact ⟨mentions ++ more, hmore⟩

/-! ## The check at the end -/

section Check

variable {d : Draft} {mentions : List Mention}

theorem undeclared?_eq_none_iff :
    d.undeclared? = none ↔ ∀ use ∈ d.uses, (d.bindings.value? use.1).isSome := by
  simp [undeclared?, Option.isSome_iff_ne_none]

/-- If the check succeeds, what is accounted for is bound. -/
theorem Accounts.isSome {name : String} (h : d.Accounts name)
    (hcheck : ∀ use ∈ d.uses, (d.bindings.value? use.1).isSome) :
    (d.bindings.value? name).isSome := by
  rcases h with hbound | hused
  · exact hbound
  · obtain ⟨use, huse, rfl⟩ := List.mem_map.1 hused
    exact hcheck use huse

theorem Accounted.bound (h : d.Accounted mentions)
    (hcheck : ∀ use ∈ d.uses, (d.bindings.value? use.1).isSome) :
    ∀ key ∈ walkOf mentions, Bound d.bindings key :=
  fun key hkey => (h.accounts key hkey).isSome hcheck

/-- **A draft ends in a graph exactly if the check succeeds.** -/
theorem Accounted.exists_graph_iff (h : d.Accounted mentions) :
    (∃ g, d.graph = .ok g) ↔ ∀ use ∈ d.uses, (d.bindings.value? use.1).isSome := by
  rw [← undeclared?_eq_none_iff, graph]
  constructor
  · rintro ⟨g, hg⟩
    cases hcheck : d.undeclared? with
    | none => rfl
    | some use =>
      rw [hcheck] at hg
      cases hg
  · intro hcheck
    rw [hcheck, h.links_eq]
    exact ⟨_, foldlM_placeRow_ofMentions (h.bound (undeclared?_eq_none_iff.1 hcheck))⟩

end Check

/-! ## The steps of the drawing -/

/-- The drawing comes by the graph `g`, and goes on to the row. -/
inductive AtRow (d : Draft) : Graph → LinkRow → Prop
  | intro {before after : List LinkRow} {row : LinkRow} {g : Graph}
      (hrows : d.links.rows = before ++ row :: after)
      (hbefore : before.foldlM (placeRow d.bindings) .empty = .ok g) : AtRow d g row

/-- The drawing comes by the graph `g`, and goes on to a destination of the source with the given
id. -/
inductive AtLink (d : Draft) : Graph → Nat → NodeKey × Nat → Prop
  | intro {before after : List (NodeKey × Nat)} {row : LinkRow} {destination : NodeKey × Nat}
      {g g' g'' : Graph} {source : Nat} (hrow : d.AtRow g row)
      (hsource : place d.bindings g row.source row.line = .ok (g', source))
      (hdestinations : row.destinations = before ++ destination :: after)
      (hbefore : before.foldlM (placeLink d.bindings source) g' = .ok g'') :
      AtLink d g'' source destination

section Steps

variable {bindings : Bindings} {d : Draft} {g g' : Graph}

theorem exists_place {key : NodeKey} (h : Bound bindings key) (g : Graph) (line : Nat) :
    ∃ g' id, place bindings g key line = .ok (g', id) := by
  obtain ⟨value, hvalue⟩ := Option.isSome_iff_exists.1 h
  rw [place, hvalue]
  cases g.nodeNamed? key.name key.enclosure with
  | some node => exact ⟨g, node.id, rfl⟩
  | none => exact ⟨_, g.size, rfl⟩

/-- What is placed has a node, and no node is lost. -/
theorem lt_size_of_place {key : NodeKey} {line id : Nat} (h : g.Built)
    (hplace : place bindings g key line = .ok (g', id)) : id < g'.size ∧ g.size ≤ g'.size := by
  rw [place] at hplace
  split at hplace
  · rename_i node hnode
    obtain ⟨rfl, rfl⟩ := Prod.mk.inj (Except.ok.inj hplace)
    have hmem : node ∈ g.nodes.toList := Array.mem_toList_iff.2 (Array.mem_of_find?_eq_some hnode)
    obtain ⟨index, hindex⟩ := Graph.mem_nodes_iff.1 hmem
    rw [h.wellFormed.id index node hindex]
    exact ⟨Graph.node?_isSome_iff.1 (hindex ▸ Option.isSome_some), le_rfl⟩
  · split at hplace
    · obtain ⟨rfl, rfl⟩ := Prod.mk.inj (Except.ok.inj hplace)
      rw [Graph.size_addNode]
      omega
    · cases hplace

theorem size_le_of_placeLink {source : Nat} {destination : NodeKey × Nat} (h : g.Built)
    (hplace : placeLink bindings source g destination = .ok g') : g.size ≤ g'.size := by
  obtain ⟨⟨middle, id⟩, hmiddle, hlink⟩ := bind_eq_ok_iff.1 hplace
  obtain rfl := Except.ok.inj hlink
  rw [Graph.size_link]
  exact (lt_size_of_place h hmiddle).2

theorem AtRow.built {row : LinkRow} (h : d.AtRow g row) : g.Built := by
  obtain ⟨-, hbefore⟩ := h
  exact foldlM_preserves (fun _ _ _ => placeRow_built) .empty hbefore

theorem AtRow.mem_rows {row : LinkRow} (h : d.AtRow g row) : row ∈ d.links.rows := by
  obtain ⟨hrows, -⟩ := h
  exact hrows ▸ List.mem_append_right _ List.mem_cons_self

/-- Whatever has been linked before, the source still is a node. -/
theorem AtLink.built_and_lt {source : Nat} {destination : NodeKey × Nat}
    (h : d.AtLink g source destination) : g.Built ∧ source < g.size := by
  obtain ⟨hrow, hsource, -, hbefore⟩ := h
  have hstep : ∀ s a s', s.Built ∧ source < s.size → placeLink d.bindings source s a = .ok s' →
      s'.Built ∧ source < s'.size := fun s a s' hs hlink =>
    ⟨placeLink_built hs.1 hlink, hs.2.trans_le (size_le_of_placeLink hs.1 hlink)⟩
  refine foldlM_preserves hstep ⟨place_built hrow.built hsource, ?_⟩ hbefore
  exact (lt_size_of_place hrow.built hsource).1

/-- The destination stands in a row of the table. -/
theorem AtLink.exists_row {source : Nat} {destination : NodeKey × Nat}
    (h : d.AtLink g source destination) :
    ∃ row ∈ d.links.rows, destination.1 ∈ rowWalk row := by
  obtain ⟨hrow, -, hdestinations, -⟩ := h
  refine ⟨_, hrow.mem_rows, List.mem_cons_of_mem _ (List.mem_map_of_mem ?_)⟩
  exact hdestinations ▸ List.mem_append_right _ List.mem_cons_self

end Steps

end Draft

/-- **The check at the end guards the whole drawing**, whatever statements there were, and whichever
of them were refused. There is a graph exactly if all variables in use are bound. If there is, then
at every row its source can be placed, and at every link its destination can be placed and the two
are nodes that can be linked. -/
theorem check_guards_the_drawing (entries : List Entry) :
    ((∃ g, (Draft.after entries).graph = .ok g) ↔
      ∀ use ∈ (Draft.after entries).uses,
        ((Draft.after entries).bindings.value? use.1).isSome) ∧
    ∀ drawing, (Draft.after entries).graph = .ok drawing →
      (∀ g row, (Draft.after entries).AtRow g row →
        ∃ g' source, Draft.place (Draft.after entries).bindings g row.source row.line =
          .ok (g', source)) ∧
      ∀ g source destination, (Draft.after entries).AtLink g source destination →
        ∃ g' id, Draft.place (Draft.after entries).bindings g destination.1 destination.2 =
          .ok (g', id) ∧ (g'.link? source id).isSome := by
  obtain ⟨mentions, haccounted⟩ := Draft.exists_accounted_after entries
  refine ⟨haccounted.exists_graph_iff, fun drawing hdrawing => ?_⟩
  have hbound := haccounted.bound (haccounted.exists_graph_iff.1 ⟨drawing, hdrawing⟩)
  have hrows : ∀ row ∈ (Draft.after entries).links.rows, ∀ key ∈ Draft.rowWalk row,
      Draft.Bound (Draft.after entries).bindings key := by
    rw [haccounted.links_eq]
    exact fun row hrow key hkey => hbound key (Draft.mem_walkOf_of_mem_row hrow hkey)
  refine ⟨fun g row hat => ?_, fun g source destination hat => ?_⟩
  · exact Draft.exists_place (hrows row hat.mem_rows _ List.mem_cons_self) g row.line
  · obtain ⟨row, hrow, hkey⟩ := hat.exists_row
    obtain ⟨g', id, hplace⟩ := Draft.exists_place (hrows row hrow _ hkey) g destination.2
    obtain ⟨hbuilt, hsource⟩ := hat.built_and_lt
    obtain ⟨hid, hsize⟩ := Draft.lt_size_of_place hbuilt hplace
    exact ⟨g', id, hplace, Graph.link?_isSome_iff.2 ⟨hsource.trans_le hsize, hid⟩⟩

/-- Statements of which two are refused: the name of the literal `a` is declared to be something
else, and by then the chain has used `x` and bound the name of the literal `b`. -/
def Entry.tangled : List Entry :=
  [⟨1, .declaration ⟨"28034", "no literal"⟩⟩,
   ⟨2, .chain ⟨[⟨.other, .reference "x"⟩, ⟨.rectangle, .literal "b"⟩, ⟨.rectangle, .literal "a"⟩],
     [.forward, .forward]⟩⟩,
   ⟨3, .declaration ⟨"x", "late"⟩⟩,
   ⟨4, .declaration ⟨"x", "again"⟩⟩,
   ⟨5, .chain ⟨[⟨.rectangle, .literal "b"⟩, ⟨.other, .reference "28034"⟩], [.forward]⟩⟩]

/-- What is left of them can be drawn. -/
theorem check_guards_the_drawing_tangled :
    (∃ g, (Draft.after Entry.tangled).graph = .ok g) ∧
    (∃ row, (Draft.after Entry.tangled).AtRow .empty row ∧
      ∃ g source, Draft.place (Draft.after Entry.tangled).bindings .empty row.source row.line =
        .ok (g, source)) ∧
    ∃ g destination, (Draft.after Entry.tangled).AtLink g 0 destination ∧
      ∃ g' id, Draft.place (Draft.after Entry.tangled).bindings g destination.1 destination.2 =
        .ok (g', id) ∧ (g'.link? 0 id).isSome := by
  have hdraft : Draft.after Entry.tangled =
      ⟨⟨[("28034", "no literal"), ("28035", "b"), ("x", "late")]⟩,
        ⟨[⟨⟨.rectangle, "28035"⟩, 5, [(⟨.other, "28034"⟩, 5)]⟩], [(⟨.rectangle, "28035"⟩, 0)]⟩,
        [("x", 2), ("28034", 5)]⟩ := by
    decide +kernel
  obtain ⟨hcheck, hsteps⟩ := check_guards_the_drawing Entry.tangled
  obtain ⟨drawing, hdrawing⟩ := hcheck.2 (by rw [hdraft]; decide)
  obtain ⟨hsources, hlinks⟩ := hsteps drawing hdrawing
  have hrow : (Draft.after Entry.tangled).AtRow .empty
      ⟨⟨.rectangle, "28035"⟩, 5, [(⟨.other, "28034"⟩, 5)]⟩ :=
    @Draft.AtRow.intro _ [] [] _ _ (congrArg (fun d => d.links.rows) hdraft) rfl
  have hplace : Draft.place (Draft.after Entry.tangled).bindings .empty ⟨.rectangle, "28035"⟩ 5 =
      .ok (Graph.empty.addNode "28035" "b" .rectangle, 0) := by
    rw [hdraft]
    rfl
  have hlink : (Draft.after Entry.tangled).AtLink (Graph.empty.addNode "28035" "b" .rectangle) 0
      (⟨.other, "28034"⟩, 5) := @Draft.AtLink.intro _ [] [] _ _ _ _ _ _ hrow hplace rfl rfl
  exact ⟨⟨drawing, hdrawing⟩, ⟨_, hrow, hsources _ _ hrow⟩, ⟨_, _, hlink, hlinks _ _ _ hlink⟩⟩

end ChainDiagram
