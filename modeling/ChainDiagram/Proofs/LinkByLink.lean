import ChainDiagram.Proofs.Reordering
import ChainDiagram.Proofs.Shift

/-!
# Chains, link by link

A chain is a short way to write its links one after the other, each from its source to its
destination. The draft is not quite the same in both cases: written out, an element in the middle of
a chain is taken twice, and the elements come in another order, so names are bound and variables are
used first in another order. No graph depends on that, and neither does the kind of an error.

Nothing here asks whether a statement can be written. A declared name may look like that of a
literal, and then the two get in each other's way in the same cases.

## What is here

* `graphOf`: the graph of some statements. `compile_eq_graphOf`: it is what is compiled.
* `Bindings.Admits`: elements that can be taken, whatever their order. `Draft.addElements_cases`:
  these are taken, and others are not.
* `Draft.Alike`: drafts that differ in orders only. They take the same statements
  (`Draft.Alike.record`) and end in the same graph (`Draft.Alike.graph`).
* `LinkByLink`: statements with some chains written link by link. `chains_are_links`: that changes
  nothing.
-/

set_option autoImplicit false

namespace ChainDiagram

/-- The graph of some statements, or the first error in them. -/
def graphOf (entries : List Entry) : Except Diagnostic Graph := do
  let d ← entries.foldlM Draft.record .empty
  d.graph

/-- Lines that are statements are read as these statements. -/
theorem foldlM_readLine_eq_foldlM_record {lines : List SourceLine} (h : AllRead lines) (d : Draft) :
    lines.foldlM Draft.readLine d = (entriesOf lines).foldlM Draft.record d := by
  induction lines generalizing d with
  | nil => rfl
  | cons line lines ih =>
    obtain ⟨⟨statement, hline⟩, hrest⟩ := List.forall_mem_cons.1 h
    have hentries : entriesOf (line :: lines) = ⟨line.number, statement⟩ :: entriesOf lines := by
      simp [entriesOf, SourceLine.entry?, hline, Except.toOption]
    simp only [hentries, List.foldlM_cons, Draft.readLine_eq, hline]
    exact bind_congr fun d' => ih hrest d'

/-- **A text is compiled to the graph of its statements**, if all its lines are statements. -/
theorem compile_eq_graphOf {source : String} (h : AllRead (sourceLines source)) :
    compile source = graphOf (entriesOf (sourceLines source)) := by
  rw [compile, foldlM_readLine_eq_foldlM_record h, graphOf]

/-! ## Elements that can be taken -/

/-- The name that an element binds and the text that it is bound to, if the element is a literal. -/
def Element.binding? (element : Element) : Option (String × String) :=
  match element.label with
  | .literal text => some (element.key.name, text)
  | .reference _ => none

/-- The name stands for the value, or one of the elements makes it do so. -/
def Bindings.Gives (bindings : Bindings) (elements : List Element) (name value : String) : Prop :=
  bindings.value? name = some value ∨ ∃ element ∈ elements, element.binding? = some (name, value)

/-- With the elements, no name would stand for two values. -/
def Bindings.Admits (bindings : Bindings) (elements : List Element) : Prop :=
  ∀ name value value', bindings.Gives elements name value → bindings.Gives elements name value' →
    value = value'

/-- The draft `d'` binds and uses what `d` does, and what the elements do. -/
structure Draft.Took (d : Draft) (elements : List Element) (d' : Draft) : Prop where
  value?_eq_some_iff : ∀ name value,
    d'.bindings.value? name = some value ↔ d.bindings.Gives elements name value
  mem_uses_iff : ∀ name, name ∈ d'.uses.map Prod.fst ↔
    name ∈ d.uses.map Prod.fst ∨ ∃ element ∈ elements, element.label = .reference name

section Took

variable {d d' d'' : Draft} {elements rest : List Element}

theorem Bindings.Admits.of_append {bindings : Bindings}
    (h : bindings.Admits (elements ++ rest)) : bindings.Admits elements := by
  have hmore : ∀ name value, bindings.Gives elements name value →
      bindings.Gives (elements ++ rest) name value := by
    intro name value hgives
    exact hgives.imp_right fun ⟨element, hmem, hbinding⟩ =>
      ⟨element, List.mem_append_left rest hmem, hbinding⟩
  intro name value value' hvalue hvalue'
  exact h name value value' (hmore name value hvalue) (hmore name value' hvalue')

theorem Draft.took_nil (d : Draft) : d.Took [] d :=
  ⟨fun name value => by simp [Bindings.Gives], fun name => by simp⟩

theorem Draft.Took.gives_iff (h : d.Took elements d') {name value : String} :
    d'.bindings.Gives rest name value ↔ d.bindings.Gives (elements ++ rest) name value := by
  simp only [Bindings.Gives, h.value?_eq_some_iff, List.mem_append, or_and_right, exists_or,
    or_assoc]

theorem Draft.Took.trans (h : d.Took elements d') (h' : d'.Took rest d'') :
    d.Took (elements ++ rest) d'' := by
  refine ⟨fun name value => ?_, fun name => ?_⟩
  · rw [h'.value?_eq_some_iff, h.gives_iff]
  · simp only [h'.mem_uses_iff, h.mem_uses_iff, List.mem_append, or_and_right, exists_or, or_assoc]

theorem Draft.Took.admits_iff (h : d.Took elements d') :
    d'.bindings.Admits rest ↔ d.bindings.Admits (elements ++ rest) := by
  simp only [Bindings.Admits, h.gives_iff]

/-- What has been taken could be taken, since a name stands for one thing at a time. -/
theorem Draft.Took.admits (h : d.Took elements d') : d.bindings.Admits elements := by
  intro name value value' hvalue hvalue'
  rw [← h.value?_eq_some_iff] at hvalue hvalue'
  exact Option.some.inj (hvalue.symm.trans hvalue')

end Took

namespace Draft

theorem mem_uses_addUse (d : Draft) (line : Nat) (name other : String) :
    other ∈ (d.addUse line name).uses.map Prod.fst ↔
      other ∈ d.uses.map Prod.fst ∨ other = name := by
  rw [addUse]
  split
  · rename_i hused
    refine (or_iff_left_of_imp ?_).symm
    rintro rfl
    exact hused
  · simp

/-- An element is taken if it does not stand in the way of what is bound already. -/
theorem addElement_cases (d : Draft) (line : Nat) (element : Element) :
    (∃ d', d.addElement line element = (.ok (), d') ∧ d.Took [element] d' ∧ d'.links = d.links) ∨
      ∃ text d', d.addElement line element = (.error (.literalCollision line text), d') ∧
        ¬d.bindings.Admits [element] := by
  cases hlabel : element.label with
  | reference name =>
    refine .inl ⟨d.addUse line name, by simp only [addElement, hlabel], ⟨?_, ?_⟩, ?_⟩
    · have hbindings : (d.addUse line name).bindings = d.bindings := by
        rw [addUse]
        split <;> rfl
      simp [hbindings, Bindings.Gives, Element.binding?, hlabel]
    · intro other
      simp [mem_uses_addUse, hlabel, eq_comm]
    · rw [addUse]
      split <;> rfl
  | literal text =>
    have hgives : ∀ name value, d.bindings.Gives [element] name value ↔
        d.bindings.value? name = some value ∨ element.key.name = name ∧ text = value := by
      simp [Bindings.Gives, Element.binding?, hlabel]
    have huses : ∀ name, ¬∃ other ∈ [element], other.label = .reference name := by simp [hlabel]
    have hkey : element.key.name = nameOfLiteral text element.enclosure := by
      rw [Element.key, hlabel]
    rw [addElement_literal hlabel, ← hkey, Bindings.bindSame?]
    cases hvalue : d.bindings.value? element.key.name with
    | none =>
      refine .inl ⟨_, rfl, ⟨fun name value => ?_, fun name => (or_iff_left (huses name)).symm⟩, rfl⟩
      rw [Bindings.value?_bind hvalue, hgives]
      by_cases hname : name = element.key.name
      · simp [hname, hvalue]
      · simp [hname, Ne.symm hname]
    | some bound =>
      by_cases hsame : bound = text
      · subst hsame
        refine .inl ⟨d, by simp only [if_true], ⟨fun name value => ?_,
          fun name => (or_iff_left (huses name)).symm⟩, rfl⟩
        rw [hgives, iff_self_or]
        rintro ⟨rfl, rfl⟩
        exact hvalue
      · refine .inr ⟨text, d, by simp only [if_neg hsame], fun hadmits => hsame ?_⟩
        exact hadmits _ _ _ ((hgives _ _).2 (.inl hvalue)) ((hgives _ _).2 (.inr ⟨rfl, rfl⟩))

/-- **Elements are taken if no name would stand for two values**, and else the kind of the error is
always the same. Neither depends on their order. -/
theorem addElements_cases (d : Draft) (line : Nat) (elements : List Element) :
    (∃ d', d.addElements line elements = (.ok (), d') ∧ d.Took elements d' ∧
      d'.links = d.links) ∨
      ∃ text d', d.addElements line elements = (.error (.literalCollision line text), d') ∧
        ¬d.bindings.Admits elements := by
  induction elements generalizing d with
  | nil => exact .inl ⟨d, rfl, d.took_nil, rfl⟩
  | cons element rest ih =>
    rw [addElements]
    rcases d.addElement_cases line element with ⟨d', hd', htook, hlinks⟩ | ⟨text, d', hd', hclash⟩
    · rw [hd']
      rcases ih d' with ⟨d'', hd'', htook', hlinks'⟩ | ⟨text, d'', hd'', hclash⟩
      · exact .inl ⟨d'', hd'', htook.trans htook', hlinks'.trans hlinks⟩
      · exact .inr ⟨text, d'', hd'', mt htook.admits_iff.2 hclash⟩
    · rw [hd']
      refine .inr ⟨text, d', rfl, fun hadmits => hclash ?_⟩
      have happend : d.bindings.Admits ([element] ++ rest) := hadmits
      exact happend.of_append

/-! ## Taking a chain -/

/-- How taking elements and links ends: with a draft that has taken them, or with a collision if the
elements cannot be taken. -/
inductive Ends (d : Draft) (elements : List Element) (links : LinkTable) :
    Except Diagnostic Draft → Prop
  | ok {d' : Draft} (htook : d.Took elements d') (hlinks : d'.links = links) :
    Ends d elements links (.ok d')
  | error {e : Diagnostic} (hclash : ¬d.bindings.Admits elements)
    (hcode : e.code = "diagram/error/literal-collision") : Ends d elements links (.error e)

/-- A chain takes its elements, and then its links. -/
theorem ends_record (d : Draft) (line : Nat) (chain : Chain) :
    d.Ends chain.elements
      (addLinks line d.links (chain.elements.map Element.key) chain.arrows)
      (d.record ⟨line, .chain chain⟩) := by
  rcases d.addElements_cases line chain.elements with
    ⟨d', hd', htook, hlinks⟩ | ⟨text, d', hd', hclash⟩
  · have hrecord : d.record ⟨line, .chain chain⟩ = .ok { d' with
        links := addLinks line d.links (chain.elements.map Element.key) chain.arrows } := by
      simp only [record, add, addChain, hd', hlinks]
    rw [hrecord]
    exact .ok ⟨htook.value?_eq_some_iff, htook.mem_uses_iff⟩ rfl
  · have hrecord : d.record ⟨line, .chain chain⟩ = .error (.literalCollision line text) := by
      simp only [record, add, addChain, hd']
    rw [hrecord]
    exact .error hclash rfl

/-- More can be taken afterwards. -/
theorem Took.ends {d d' : Draft} {elements rest : List Element} {links : LinkTable}
    {x : Except Diagnostic Draft} (h : d.Took elements d') (h' : d'.Ends rest links x) :
    d.Ends (elements ++ rest) links x := by
  cases h' with
  | ok htook hlinks => exact .ok (h.trans htook) hlinks
  | error hclash hcode => exact .error (mt h.admits_iff.2 hclash) hcode

end Draft

/-- A link as a chain of its own, from its source to its destination. -/
def Chain.ofLink : Element × Arrow × Element → Chain
  | (left, arrow, right) => ⟨[(arrow.ends left right).1, (arrow.ends left right).2], [.forward]⟩

/-- The links of a chain, each as a chain of its own. -/
def Chain.linkByLink (chain : Chain) : List Statement :=
  chain.links.map fun link => .chain (Chain.ofLink link)

/-- What a link mentions in a line. -/
def Mention.ofTriple (line : Nat) : Element × Arrow × Element → Mention
  | (left, arrow, right) => .ofLink line left arrow right

/-- A link as a chain of its own adds one link to the table. -/
theorem Draft.addLinks_ofLink (line : Nat) (table : LinkTable) (link : Element × Arrow × Element) :
    Draft.addLinks line table ((Chain.ofLink link).elements.map Element.key)
      (Chain.ofLink link).arrows = table.record (.ofTriple line link) := by
  obtain ⟨left, arrow, right⟩ := link
  cases arrow <;> rfl

/-- Links that are taken one by one. The induction is on the links, the first of which is taken
first. -/
theorem Draft.ends_foldlM_links (d : Draft) (line : Nat)
    (links : List (Element × Arrow × Element)) :
    d.Ends (links.flatMap fun link => (Chain.ofLink link).elements)
      ((links.map (Mention.ofTriple line)).foldl LinkTable.record d.links)
      ((links.map fun link => Entry.mk line (.chain (Chain.ofLink link))).foldlM
        Draft.record d) := by
  induction links generalizing d with
  | nil => exact .ok d.took_nil rfl
  | cons link links ih =>
    rw [List.flatMap_cons, List.map_cons, List.map_cons, List.foldl_cons, List.foldlM_cons,
      ← Draft.addLinks_ofLink]
    have hfirst := d.ends_record line (Chain.ofLink link)
    generalize d.record ⟨line, .chain (Chain.ofLink link)⟩ = x at hfirst ⊢
    cases hfirst with
    | @ok d' htook hlinks =>
      rw [← hlinks]
      exact htook.ends (ih d')
    | error hclash hcode => exact .error (fun hadmits => hclash hadmits.of_append) hcode

/-! ## Drafts that differ in orders only -/

/-- Two drafts with the same links that bind the same names, and use the same variables, in whatever
order. -/
structure Draft.Alike (d d' : Draft) : Prop where
  value? : ∀ name, d'.bindings.value? name = d.bindings.value? name
  mem_uses_iff : ∀ name, name ∈ d'.uses.map Prod.fst ↔ name ∈ d.uses.map Prod.fst
  links : d'.links = d.links

theorem Draft.Alike.refl (d : Draft) : d.Alike d := ⟨fun _ => rfl, fun _ => .rfl, rfl⟩

/-- Two runs end with drafts that are alike, or with errors of the same kind. -/
inductive Draft.EndAlike : Except Diagnostic Draft → Except Diagnostic Draft → Prop
  | ok {d d' : Draft} (h : d.Alike d') : EndAlike (.ok d) (.ok d')
  | error {e e' : Diagnostic} (hcode : e'.code = e.code) : EndAlike (.error e) (.error e')

theorem Draft.EndAlike.bind {x y : Except Diagnostic Draft} (h : Draft.EndAlike x y)
    {f f' : Draft → Except Diagnostic Draft}
    (hf : ∀ d d', d.Alike d' → Draft.EndAlike (f d) (f' d')) :
    Draft.EndAlike (x >>= f) (y >>= f') := by
  cases h with
  | ok h => exact hf _ _ h
  | error hcode => exact .error hcode

/-- What ends alike and is continued alike, ends in one graph or in errors of the same kind. -/
theorem Draft.EndAlike.bind_eq {x y : Except Diagnostic Draft} (h : Draft.EndAlike x y)
    {f f' : Draft → Except Diagnostic Graph}
    (hf : ∀ d d', d.Alike d' → (f' d').mapError Diagnostic.code = (f d).mapError Diagnostic.code) :
    (y >>= f').mapError Diagnostic.code = (x >>= f).mapError Diagnostic.code := by
  cases h with
  | ok h => exact hf _ _ h
  | error hcode => exact congrArg Except.error hcode

namespace Draft

section Alike

variable {d d' : Draft} {elements elements' : List Element}

theorem Alike.gives_iff (h : d.Alike d')
    (helements : ∀ element, element ∈ elements' ↔ element ∈ elements) {name value : String} :
    d'.bindings.Gives elements' name value ↔ d.bindings.Gives elements name value := by
  simp only [Bindings.Gives, h.value?, helements]

/-- **Taking the same elements, in whatever order and however often, ends alike.** -/
theorem Ends.endAlike {x y : Except Diagnostic Draft} {links links' : LinkTable}
    (hx : d.Ends elements links x) (hy : d'.Ends elements' links' y) (h : d.Alike d')
    (helements : ∀ element, element ∈ elements' ↔ element ∈ elements) (hlinks : links' = links) :
    EndAlike x y := by
  have hadmits : d'.bindings.Admits elements' ↔ d.bindings.Admits elements := by
    simp only [Bindings.Admits, h.gives_iff helements]
  cases hx with
  | ok htook hd =>
    cases hy with
    | ok htook' hd' =>
      refine .ok ⟨fun name => Option.ext fun value => ?_, fun name => ?_, ?_⟩
      · rw [htook'.value?_eq_some_iff, htook.value?_eq_some_iff, h.gives_iff helements]
      · simp only [htook'.mem_uses_iff, htook.mem_uses_iff, h.mem_uses_iff, helements]
      · rw [hd', hd, hlinks]
    | error hclash _ => exact absurd (hadmits.2 htook.admits) hclash
  | error hclash hcode =>
    cases hy with
    | ok htook' _ => exact absurd (hadmits.1 htook'.admits) hclash
    | error _ hcode' => exact .error (hcode'.trans hcode.symm)

/-- **Drafts that are alike take the same statements**, and stay alike. -/
theorem Alike.record (h : d.Alike d') (entry : Entry) :
    EndAlike (d.record entry) (d'.record entry) := by
  obtain ⟨line, statement⟩ := entry
  cases statement with
  | chain chain =>
    refine (d.ends_record line chain).endAlike (d'.ends_record line chain) h (fun _ => .rfl) ?_
    rw [h.links]
  | declaration declaration =>
    have hvalue := h.value? declaration.name
    simp only [Draft.record, add, addDeclaration, Bindings.bindNew?, hvalue]
    cases hname : d.bindings.value? declaration.name with
    | some value => exact .error rfl
    | none =>
      refine .ok ⟨fun name => ?_, h.mem_uses_iff, h.links⟩
      rw [Bindings.value?_bind hname, Bindings.value?_bind (hvalue.trans hname), h.value?]

/-- Lines are read alike. -/
theorem Alike.foldlM_readLine (h : d.Alike d') (lines : List SourceLine) :
    EndAlike (lines.foldlM readLine d) (lines.foldlM readLine d') := by
  induction lines generalizing d d' with
  | nil => exact .ok h
  | cons line lines ih =>
    rw [List.foldlM_cons, List.foldlM_cons, readLine_eq, readLine_eq]
    refine EndAlike.bind ?_ fun _ _ h' => ih h'
    cases Statement.read line.text with
    | error e => exact .error rfl
    | ok statement => exact h.record ⟨line.number, statement⟩

/-- Whether a variable is declared nowhere does not depend on the order of the uses. Which of them
is found first may. -/
theorem Alike.undeclared?_eq_none_iff (h : d.Alike d') :
    d'.undeclared? = none ↔ d.undeclared? = none := by
  have hnone : ∀ d : Draft, d.undeclared? = none ↔
      ∀ name ∈ d.uses.map Prod.fst, ¬(d.bindings.value? name).isNone := by
    intro d
    rw [undeclared?, List.find?_eq_none, List.forall_mem_map]
  simp only [hnone, h.mem_uses_iff, h.value?]

/-- **Drafts that are alike end in the same graph.** -/
theorem Alike.graph (h : d.Alike d') :
    d'.graph.mapError Diagnostic.code = d.graph.mapError Diagnostic.code := by
  have hplace : place d'.bindings = place d.bindings := by
    funext g key line
    rw [place, place, h.value?]
  have hrow : placeRow d'.bindings = placeRow d.bindings := by
    funext g row
    have hlink : ∀ source, placeLink d'.bindings source = placeLink d.bindings source := by
      intro source
      funext g destination
      rw [placeLink, placeLink, hplace]
    simp only [placeRow, hplace, hlink]
  have hnone := h.undeclared?_eq_none_iff
  rw [Draft.graph, Draft.graph, h.links, hrow]
  cases hd : d.undeclared? with
  | none => rw [hnone.2 hd]
  | some use =>
    cases hd' : d'.undeclared? with
    | none => exact absurd (hnone.1 hd') (by simp [hd])
    | some use' => rfl

theorem Alike.finish (h : d.Alike d') (lines : List SourceLine) :
    (d'.finish lines).mapError Diagnostic.code = (d.finish lines).mapError Diagnostic.code :=
  (h.foldlM_readLine lines).bind_eq fun _ _ h' => h'.graph

end Alike

end Draft

/-! ## Chains that are written link by link -/

/-- The links of a chain of two or more have its elements as ends. -/
theorem Chain.mem_flatMap_links_iff {chain : Chain}
    (hlength : chain.elements.length = chain.arrows.length + 1)
    (htwo : 2 ≤ chain.elements.length) (element : Element) :
    element ∈ chain.links.flatMap (fun link => (Chain.ofLink link).elements) ↔
      element ∈ chain.elements := by
  have hends : ∀ left arrow right,
      element ∈ (Chain.ofLink (left, arrow, right)).elements ↔
        element = left ∨ element = right := by
    intro left arrow right
    cases arrow with
    | forward => simp [Chain.ofLink]
    | backward => simp [Chain.ofLink, or_comm]
  rw [List.mem_flatMap]
  refine ⟨?_, fun h => ?_⟩
  · rintro ⟨⟨left, arrow, right⟩, hlink, helement⟩
    obtain ⟨hleft, hright⟩ := Chain.mem_of_mem_links hlink
    rcases (hends left arrow right).1 helement with rfl | rfl
    · exact hleft
    · exact hright
  · match helements : chain.elements, htwo with
    | a :: b :: rest, _ =>
      rw [helements] at h
      obtain ⟨pair, hpair, hneighbour⟩ := exists_mem_adjacentPairs h
      obtain ⟨arrow, hlink⟩ := Chain.exists_mem_links hlength (helements ▸ hpair)
      exact ⟨_, hlink, (hends _ _ _).2 (hneighbour.imp Eq.symm Eq.symm)⟩

/-- A chain of two or more adds the links that it consists of. -/
theorem Draft.addLinks_eq_links {chain : Chain} (htwo : 2 ≤ chain.elements.length) (line : Nat)
    (table : LinkTable) :
    Draft.addLinks line table (chain.elements.map Element.key) chain.arrows =
      (chain.links.map (Mention.ofTriple line)).foldl LinkTable.record table := by
  rw [Draft.addLinks_eq_foldl, Chain.mentions_eq_map_links htwo]
  rfl

/-- **A chain is taken like its links**, all of them in one line. -/
theorem Draft.Alike.record_linkByLink {d d' : Draft} (h : d.Alike d') {chain : Chain}
    (hlength : chain.elements.length = chain.arrows.length + 1)
    (htwo : 2 ≤ chain.elements.length) (line : Nat) :
    Draft.EndAlike (d.record ⟨line, .chain chain⟩)
      ((chain.linkByLink.map (Entry.mk line)).foldlM Draft.record d') := by
  rw [Chain.linkByLink, List.map_map]
  refine (d.ends_record line chain).endAlike (d'.ends_foldlM_links line chain.links) h
    (Chain.mem_flatMap_links_iff hlength htwo) ?_
  rw [Draft.addLinks_eq_links htwo, h.links]

/-- Some chains of two elements or more are written link by link, and all other statements are the
same. -/
inductive LinkByLink : List Statement → List Statement → Prop
  | nil : LinkByLink [] []
  | same (statement : Statement) {rest rest' : List Statement} (hrest : LinkByLink rest rest') :
    LinkByLink (statement :: rest) (statement :: rest')
  | chain {chain : Chain} {rest rest' : List Statement}
    (hlength : chain.elements.length = chain.arrows.length + 1)
    (htwo : 2 ≤ chain.elements.length) (hrest : LinkByLink rest rest') :
    LinkByLink (.chain chain :: rest) (chain.linkByLink ++ rest')

/-- Statements that are written link by link are taken alike, if all of them are in one line. -/
theorem LinkByLink.foldlM_record {statements statements' : List Statement}
    (hlinks : LinkByLink statements statements') (line : Nat) {d d' : Draft} (h : d.Alike d') :
    Draft.EndAlike ((statements.map (Entry.mk line)).foldlM Draft.record d)
      ((statements'.map (Entry.mk line)).foldlM Draft.record d') := by
  induction hlinks generalizing d d' with
  | nil => exact .ok h
  | same statement _ ih =>
    rw [List.map_cons, List.map_cons, List.foldlM_cons, List.foldlM_cons]
    exact (h.record _).bind fun _ _ h' => ih h'
  | chain hlength htwo _ ih =>
    rw [List.map_cons, List.map_append, List.foldlM_cons, List.foldlM_append]
    exact (h.record_linkByLink hlength htwo line).bind fun _ _ h' => ih h'

/-- If the lines of the statements move, so does the error. -/
theorem graphOf_shift (s : Shift) (entries : List Entry) :
    graphOf (entries.map fun entry => ⟨s.row entry.line, entry.statement⟩) =
      (graphOf entries).mapError (Diagnostic.shift s) := by
  have hrecord : (entries.map fun entry => Entry.mk (s.row entry.line) entry.statement).foldlM
      Draft.record (Draft.empty.shift s) =
        ((entries.foldlM Draft.record Draft.empty).map (Draft.shift s)).mapError
          (Diagnostic.shift s) :=
    foldlM_map_eq (fun d entry => Draft.record_shift s d entry.line entry.statement) entries _
  show (entries.map _).foldlM Draft.record (Draft.empty.shift s) >>= Draft.graph =
    (entries.foldlM Draft.record Draft.empty >>= Draft.graph).mapError (Diagnostic.shift s)
  rw [hrecord]
  cases entries.foldlM Draft.record Draft.empty with
  | error e => rfl
  | ok d => exact d.graph_shift s

/-- The lines of the statements decide neither the graph nor the kind of the error. -/
theorem mapError_code_graphOf (entries : List Entry) :
    (graphOf entries).mapError Diagnostic.code =
      (graphOf ((statementsOf entries).map (Entry.mk 0))).mapError Diagnostic.code := by
  -- all lines move to one place
  have hgraph := graphOf_shift ⟨fun _ => 0, fun _ => 0⟩ entries
  rw [statementsOf, List.map_map]
  rw [show graphOf (entries.map (Entry.mk 0 ∘ Entry.statement)) = _ from hgraph]
  cases graphOf entries with
  | error e => exact congrArg Except.error (e.code_shift _).symm
  | ok g => rfl

/-- **Statements that are written link by link have the same graph**, or errors of the same kind,
whatever lines they are in. -/
theorem LinkByLink.mapError_graphOf {entries entries' : List Entry}
    (h : LinkByLink (statementsOf entries) (statementsOf entries')) :
    (graphOf entries').mapError Diagnostic.code = (graphOf entries).mapError Diagnostic.code := by
  rw [mapError_code_graphOf entries, mapError_code_graphOf entries']
  exact (h.foldlM_record 0 (.refl .empty)).bind_eq fun _ _ halike => halike.graph

/-- A chain in a line is what the line is read as. -/
theorem Line.exists_read_of_chain? {raw : Line} {chain : Chain} (h : raw.chain? = some chain)
    (number : Nat) :
    ∃ line, SourceLine.ofRaw? number raw = some line ∧ line.number = number ∧
      Statement.read line.text = .ok (.chain chain) := by
  obtain ⟨text, htext, hread⟩ := Line.chain?_eq_some_iff.1 h
  obtain ⟨line, hline, rfl⟩ := Option.map_eq_some_iff.1 htext
  rw [SourceLine.ofRaw?_eq_map, hline]
  exact ⟨_, rfl, rfl, Statement.read_eq_chain_iff.2 hread⟩

/-- **A link can be turned around in its line.** -/
theorem compile_turned {source source' : String} {before after : List Line} {raw raw' : Line}
    {left right : Element} (hsource : linesOf source = before ++ raw :: after)
    (hsource' : linesOf source' = before ++ raw' :: after)
    (hraw : raw.chain? = some ⟨[left, right], [.backward]⟩)
    (hraw' : raw'.chain? = some ⟨[right, left], [.forward]⟩) :
    (compile source').mapError Diagnostic.code = (compile source).mapError Diagnostic.code := by
  obtain ⟨line, hline, hnumber, hread⟩ := Line.exists_read_of_chain? hraw (1 + before.length)
  obtain ⟨line', hline', hnumber', hread'⟩ := Line.exists_read_of_chain? hraw' (1 + before.length)
  rw [compile_eq_finish, compile_eq_finish, sourceLines_eq_append hsource,
    sourceLines_eq_append hsource', hline, hline', Draft.finish_append, Draft.finish_append]
  cases (significantLines 1 before).foldlM Draft.readLine Draft.empty with
  | error e => rfl
  | ok d =>
    show (d.finish (line' :: _)).mapError _ = (d.finish (line :: _)).mapError _
    rw [Draft.finish_cons, Draft.finish_cons, Draft.readLine_eq, Draft.readLine_eq, hread, hread',
      hnumber, hnumber']
    let link : Chain := ⟨[left, right], [.backward]⟩
    have hlinks : link.linkByLink = [.chain ⟨[right, left], [.forward]⟩] := rfl
    have hlength : link.elements.length = link.arrows.length + 1 := rfl
    have hturned := (Draft.Alike.refl d).record_linkByLink hlength (Nat.le_refl 2)
      (1 + before.length)
    simp only [hlinks, List.map_singleton, List.foldlM_cons, List.foldlM_nil, bind_pure] at hturned
    exact hturned.bind_eq fun _ _ halike => halike.finish _

/-- **Chains are nothing but their links.** In any list of statements, chains of two or more
elements can be written link by link, each link from its source to its destination: the graph is the
same, and where there is none, the error is of the same kind. In particular, a line with a single
link may have it either way around. -/
theorem chains_are_links :
    (∀ entries entries', LinkByLink (statementsOf entries) (statementsOf entries') →
      (graphOf entries').mapError Diagnostic.code =
        (graphOf entries).mapError Diagnostic.code) ∧
    ∀ source source' before after raw raw' left right,
      linesOf source = before ++ raw :: after → linesOf source' = before ++ raw' :: after →
      raw.chain? = some ⟨[left, right], [.backward]⟩ →
      raw'.chain? = some ⟨[right, left], [.forward]⟩ →
      (compile source').mapError Diagnostic.code = (compile source).mapError Diagnostic.code :=
  ⟨fun _ _ h => h.mapError_graphOf, fun _ _ _ _ _ _ _ _ => compile_turned⟩

/-- Both links of `[a] <- ("x") <- [a]` run from the right to the left. The link in `[a] <- ("x")`
is turned around, and its variable is still declared nowhere. -/
theorem chains_are_links_backward :
    graphOf [⟨1, .declaration ⟨"a", "v"⟩⟩, ⟨2, .chain ⟨[⟨.rectangle, .reference "a"⟩,
        ⟨.roundedRectangle, .literal "x"⟩, ⟨.rectangle, .reference "a"⟩],
        [.backward, .backward]⟩⟩] =
      .ok ⟨#[⟨0, "12400", "x", .roundedRectangle, [1]⟩, ⟨1, "a", "v", .rectangle, [0]⟩]⟩ ∧
    graphOf [⟨1, .declaration ⟨"a", "v"⟩⟩,
        ⟨2, .chain ⟨[⟨.roundedRectangle, .literal "x"⟩, ⟨.rectangle, .reference "a"⟩],
          [.forward]⟩⟩,
        ⟨3, .chain ⟨[⟨.rectangle, .reference "a"⟩, ⟨.roundedRectangle, .literal "x"⟩],
          [.forward]⟩⟩] =
      .ok ⟨#[⟨0, "12400", "x", .roundedRectangle, [1]⟩, ⟨1, "a", "v", .rectangle, [0]⟩]⟩ ∧
    compile "[a] <- (\"x\")" = .error (.undefinedVariable 1 "a") ∧
    ∃ e, compile "(\"x\") -> [a]" = .error e ∧ e.code = "diagram/error/undefined-variable" := by
  have hgraph : graphOf [⟨1, .declaration ⟨"a", "v"⟩⟩, ⟨2, .chain ⟨[⟨.rectangle, .reference "a"⟩,
      ⟨.roundedRectangle, .literal "x"⟩, ⟨.rectangle, .reference "a"⟩],
      [.backward, .backward]⟩⟩] =
      .ok ⟨#[⟨0, "12400", "x", .roundedRectangle, [1]⟩, ⟨1, "a", "v", .rectangle, [0]⟩]⟩ := by rfl
  have hgraphs := chains_are_links.1
    [⟨1, .declaration ⟨"a", "v"⟩⟩, ⟨2, .chain ⟨[⟨.rectangle, .reference "a"⟩,
      ⟨.roundedRectangle, .literal "x"⟩, ⟨.rectangle, .reference "a"⟩], [.backward, .backward]⟩⟩]
    [⟨1, .declaration ⟨"a", "v"⟩⟩,
      ⟨2, .chain ⟨[⟨.roundedRectangle, .literal "x"⟩, ⟨.rectangle, .reference "a"⟩], [.forward]⟩⟩,
      ⟨3, .chain ⟨[⟨.rectangle, .reference "a"⟩, ⟨.roundedRectangle, .literal "x"⟩], [.forward]⟩⟩]
    (.same _ (.chain rfl (by decide) .nil))
  have hgaps : ∀ gap ∈ ([[], [], [], [' '], [' ']] : List Line), Blanks gap := by
    simp [Blanks, isBlank]
  have hread : Chain.read "[a] <- (\"x\")".toList =
      .ok ⟨[⟨.rectangle, .reference "a"⟩, ⟨.roundedRectangle, .literal "x"⟩], [.backward]⟩ :=
    Chain.read_eq_ok_iff.2 ⟨⟨rfl, by simp [Label.Writable, Line.IsName, Line.Quotable]⟩,
      spelled_layOut hgaps⟩
  have hread' : Chain.read "(\"x\") -> [a]".toList =
      .ok ⟨[⟨.roundedRectangle, .literal "x"⟩, ⟨.rectangle, .reference "a"⟩], [.forward]⟩ :=
    Chain.read_eq_ok_iff.2 ⟨⟨rfl, by simp [Label.Writable, Line.IsName, Line.Quotable]⟩,
      spelled_layOut hgaps⟩
  have hlines : sourceLines "[a] <- (\"x\")" = [⟨1, 0, "[a] <- (\"x\")".toList⟩] := by rfl
  have hcompile : compile "[a] <- (\"x\")" = .error (.undefinedVariable 1 "a") := by
    rw [compile, hlines]
    simp only [List.foldlM_cons, Draft.readLine, Statement.read_eq_chain_iff.2 hread]
    rfl
  have hcompiles := chains_are_links.2 "[a] <- (\"x\")" "(\"x\") -> [a]" [] [] _ _ _ _ (by rfl)
    (by rfl) (Line.chain?_eq_some_iff.2 ⟨_, by rfl, hread⟩)
    (Line.chain?_eq_some_iff.2 ⟨_, by rfl, hread'⟩)
  refine ⟨hgraph, ?_, hcompile, ?_⟩
  · rw [hgraph] at hgraphs
    generalize graphOf _ = outcome at hgraphs ⊢
    cases outcome with
    | error e => cases hgraphs
    | ok g => exact congrArg Except.ok (Except.ok.inj hgraphs)
  · rw [hcompile] at hcompiles
    generalize compile "(\"x\") -> [a]" = outcome at hcompiles ⊢
    cases outcome with
    | error e => exact ⟨e, rfl, Except.error.inj hcompiles⟩
    | ok g => cases hcompiles

end ChainDiagram
