import ChainDiagram.Proofs.Refusal

/-!
# Diagrams without an error, in any order

`Faultless` judges each line by the lines before it, as the compiler does. Here the same is said
about the lines as a whole: all of them are statements, no name is declared twice, literals that
share a name agree, and what is used is declared. None of this mentions an order.

## What is here

* `Element.Agrees`: two elements can be in one diagram.
* `noneBad_iff`: the judgement line by line, without the order.
* `faultless_iff_consistent`: there is nothing wrong with the lines of a diagram exactly if they are
  `Consistent`. `Consistent.of_perm`: that does not depend on their order.
-/

set_option autoImplicit false

namespace ChainDiagram

/-! ## Literals that share a name -/

/-- If both elements are literals with the same name, they have the same text. -/
def Element.Agrees (a b : Element) : Prop :=
  ∀ text text', a.label = .literal text → b.label = .literal text' →
    nameOfLiteral text a.enclosure = nameOfLiteral text' b.enclosure → text = text'

theorem Element.Agrees.refl (a : Element) : a.Agrees a := by
  intro text text' h h' _
  exact Label.literal.inj (h.symm.trans h')

theorem Element.Agrees.symm {a b : Element} (h : a.Agrees b) : b.Agrees a := by
  intro text text' hb ha hname
  exact (h text' text ha hb hname.symm).symm

/-- Any two of the elements agree. -/
def AllAgree (elements : List Element) : Prop := ∀ a ∈ elements, ∀ b ∈ elements, a.Agrees b

theorem Element.clashes_iff {earlier : List Element} {element : Element} :
    element.Clashes earlier ↔ ∃ other ∈ earlier, ¬other.Agrees element := by
  simp only [Element.Clashes, Element.Agrees, not_forall]
  constructor
  · rintro ⟨text, hlabel, other, hother, otherText, hotherLabel, hname, hne⟩
    exact ⟨other, hother, otherText, text, hotherLabel, hlabel, hname, hne⟩
  · rintro ⟨other, hother, otherText, text, hotherLabel, hlabel, hname, hne⟩
    exact ⟨text, hlabel, other, hother, otherText, hotherLabel, hname, hne⟩

theorem allAgree_concat_iff {elements : List Element} {element : Element} :
    AllAgree (elements ++ [element]) ↔ AllAgree elements ∧ ¬element.Clashes elements := by
  rw [Element.clashes_iff]
  push Not
  constructor
  · intro h
    exact ⟨fun a ha b hb => h a (List.mem_append_left _ ha) b (List.mem_append_left _ hb),
      fun a ha => h a (List.mem_append_left _ ha) element (by simp)⟩
  · rintro ⟨hold, hnew⟩ a ha b hb
    rcases List.mem_append.1 ha with ha | ha <;> rcases List.mem_append.1 hb with hb | hb
    · exact hold a ha b hb
    · exact List.mem_singleton.1 hb ▸ hnew a ha
    · exact List.mem_singleton.1 ha ▸ (hnew b hb).symm
    · rw [List.mem_singleton.1 ha, List.mem_singleton.1 hb]
      exact .refl element

/-- A chain fits the elements before it exactly if all of them agree. The induction is on the chain
from its last element back. -/
theorem allAgree_append_iff {elements chain : List Element} :
    AllAgree (elements ++ chain) ↔ AllAgree elements ∧ NoneBad (ClashesAfter elements) chain := by
  induction chain using List.reverseRecOn with
  | nil => simp [noneBad_nil]
  | append_singleton chain element ih =>
    rw [← List.append_assoc, allAgree_concat_iff, ih, noneBad_concat_iff, ClashesAfter, and_assoc]

/-! ## Lines that fit -/

theorem not_refused_declaration_iff {entries : List Entry} {line : Nat} {d : Declaration} :
    (∀ e, ¬(Statement.declaration d).Refused entries line e) ↔
      ¬Declared (declarationsOf entries) d.name := by
  constructor
  · intro h hold
    exact h _ (.duplicate hold)
  · rintro hnew e (⟨hold⟩ | _)
    exact hnew hold

theorem not_refused_chain_iff {entries : List Entry} {line : Nat} {c : Chain} :
    (∀ e, ¬(Statement.chain c).Refused entries line e) ↔
      NoneBad (ClashesAfter (elementsOf entries)) c.elements := by
  constructor
  · intro h
    rcases noneBad_or_firstBad (ClashesAfter (elementsOf entries)) c.elements with
      hnone | ⟨left, element, hfirst⟩
    · exact hnone
    · obtain ⟨text, hlabel, -⟩ := hfirst.bad
      exact absurd (.collision hfirst hlabel) (h _)
  · rintro hnone e (_ | ⟨⟨⟨right, hright⟩, -, hbad⟩, -⟩)
    exact hnone _ _ right hright hbad

/-- The names that are declared, in the order of the declarations. -/
def declaredNames (entries : List Entry) : List String :=
  (declarationsOf entries).map Declaration.name

theorem mem_declaredNames_iff {entries : List Entry} {name : String} :
    name ∈ declaredNames entries ↔ Declared (declarationsOf entries) name := List.mem_map

/-- A statement that fits leaves what has been said in order, and no other does. -/
theorem not_refused_iff {entries : List Entry} {line : Nat} {statement : Statement}
    (hnames : (declaredNames entries).Nodup) (hagree : AllAgree (elementsOf entries)) :
    (∀ e, ¬statement.Refused entries line e) ↔
      (declaredNames (entries ++ [⟨line, statement⟩])).Nodup ∧
        AllAgree (elementsOf (entries ++ [⟨line, statement⟩])) := by
  rw [declaredNames, declarationsOf_concat, elementsOf_concat]
  cases statement with
  | declaration d =>
    show _ ↔ ((declarationsOf entries ++ [d]).map Declaration.name).Nodup ∧
      AllAgree (elementsOf entries ++ [])
    rw [not_refused_declaration_iff, ← mem_declaredNames_iff, List.map_append, List.append_nil,
      List.map_singleton, ← declaredNames, ← List.concat_eq_append, List.nodup_concat]
    tauto
  | chain c =>
    show _ ↔ ((declarationsOf entries ++ []).map Declaration.name).Nodup ∧
      AllAgree (elementsOf entries ++ c.elements)
    rw [not_refused_chain_iff, allAgree_append_iff, List.append_nil, ← declaredNames]
    tauto

/-- Every line is a statement. -/
def AllRead (lines : List SourceLine) : Prop :=
  ∀ line ∈ lines, ∃ statement, Statement.read line.text = .ok statement

theorem SourceLine.not_bad_iff {lines : List SourceLine} {line : SourceLine} :
    ¬line.Bad lines ↔ ∃ statement, Statement.read line.text = .ok statement ∧
      ∀ e, ¬statement.Refused (entriesOf lines) line.number e := by
  constructor
  · intro h
    cases hread : Statement.read line.text with
    | error failure => exact absurd ⟨_, .syntaxError hread⟩ h
    | ok statement => exact ⟨statement, rfl, fun e he => h ⟨e, .statement hread he⟩⟩
  · rintro ⟨statement, hread, hfits⟩ ⟨e, hrefused⟩
    cases hrefused with
    | syntaxError hread' => exact absurd (hread.symm.trans hread') (by simp)
    | statement hread' hrefused =>
      obtain rfl := Except.ok.inj (hread.symm.trans hread')
      exact hfits e hrefused

/-- **Line by line, nothing is refused exactly if the lines fit each other.** The induction is on
the lines from the last one back, since each is judged by those before it. -/
theorem noneBad_iff {lines : List SourceLine} :
    NoneBad SourceLine.Bad lines ↔
      AllRead lines ∧ (declaredNames (entriesOf lines)).Nodup ∧
        AllAgree (elementsOf (entriesOf lines)) := by
  induction lines using List.reverseRecOn with
  | nil => exact iff_of_true noneBad_nil ⟨nofun, List.nodup_nil, nofun⟩
  | append_singleton lines line ih =>
    rw [noneBad_concat_iff, ih, SourceLine.not_bad_iff]
    constructor
    · rintro ⟨⟨hread, hnames, hagree⟩, statement, hstatement, hfits⟩
      rw [entriesOf_concat hstatement]
      refine ⟨fun other hother => ?_, (not_refused_iff hnames hagree).1 hfits⟩
      rcases List.mem_append.1 hother with hother | hother
      · exact hread other hother
      · exact ⟨statement, List.mem_singleton.1 hother ▸ hstatement⟩
    · rintro ⟨hread, hnames, hagree⟩
      obtain ⟨statement, hstatement⟩ := hread line (by simp)
      rw [entriesOf_concat hstatement] at hnames hagree
      have hnames' : (declaredNames (entriesOf lines)).Nodup := by
        rw [declaredNames, declarationsOf_concat, List.map_append] at hnames
        exact hnames.of_append_left
      have hagree' : AllAgree (elementsOf (entriesOf lines)) := by
        rw [elementsOf_concat] at hagree
        exact (allAgree_append_iff.1 hagree).1
      exact ⟨⟨fun other hother => hread other (List.mem_append_left _ hother), hnames', hagree'⟩,
        statement, hstatement, (not_refused_iff hnames' hagree').2 ⟨hnames, hagree⟩⟩

/-! ## Consistent diagrams -/

/-- What the lines of a diagram have to satisfy, in whatever order they come. -/
structure Consistent (lines : List SourceLine) : Prop where
  /-- Every line is a statement. -/
  read : AllRead lines
  /-- No name is declared twice. -/
  nodup : (declaredNames (entriesOf lines)).Nodup
  /-- Literals with the same name have the same text. -/
  agree : AllAgree (elementsOf (entriesOf lines))
  /-- What is used is declared. -/
  declared : ∀ element ∈ elementsOf (entriesOf lines), ∀ name, element.label = .reference name →
    name ∈ declaredNames (entriesOf lines)

/-- A variable is used where an element refers to it. -/
theorem forall_referencesOf_iff {entries : List Entry} {p : String → Prop} :
    (∀ use ∈ referencesOf entries, p use.1) ↔
      ∀ element ∈ elementsOf entries, ∀ name, element.label = .reference name → p name := by
  constructor
  · intro h element helement name hlabel
    obtain ⟨entry, hentry, hmem⟩ := List.mem_flatMap.1 helement
    have huse : (name, entry.line) ∈ element.uses entry.line := by
      simp [Element.uses, hlabel]
    exact h _ (List.mem_flatMap_of_mem hentry (List.mem_flatMap_of_mem hmem huse))
  · intro h use huse
    obtain ⟨entry, hentry, element, hmem, hlabel, -⟩ := exists_element_of_mem_referencesOf huse
    exact h element (List.mem_flatMap_of_mem hentry hmem) use.1 hlabel

/-- **There is nothing wrong with the lines of a diagram exactly if they are consistent.** -/
theorem faultless_iff_consistent {lines : List SourceLine} :
    Faultless lines ↔ Consistent lines := by
  have huses : (∀ use ∈ referencesOf (entriesOf lines),
      Declared (declarationsOf (entriesOf lines)) use.1) ↔
        ∀ element ∈ elementsOf (entriesOf lines), ∀ name, element.label = .reference name →
          name ∈ declaredNames (entriesOf lines) := by
    simp only [mem_declaredNames_iff]
    exact forall_referencesOf_iff
  constructor
  · rintro ⟨hlines, hdeclared⟩
    obtain ⟨hread, hnames, hagree⟩ := noneBad_iff.1 hlines
    exact ⟨hread, hnames, hagree, huses.1 hdeclared⟩
  · rintro ⟨hread, hnames, hagree, hdeclared⟩
    exact ⟨noneBad_iff.2 ⟨hread, hnames, hagree⟩, huses.2 hdeclared⟩

/-- **A diagram is compiled exactly if its lines are consistent.** -/
theorem exists_compile_iff {source : String} :
    (∃ g, compile source = .ok g) ↔ Consistent (sourceLines source) := by
  rw [← faultless_iff_consistent]
  constructor
  · rintro ⟨g, hg⟩
    exact faultless_of_compile hg
  · intro h
    obtain ⟨d, -, hd⟩ := h.compile
    exact ⟨_, hd⟩

/-! ## Other orders -/

/-- What some statements say, without the numbers of their lines. -/
def statementsOf (entries : List Entry) : List Statement := entries.map (·.statement)

section Order

variable {entries entries' : List Entry} {lines lines' : List SourceLine}

theorem declarationsOf_eq (entries : List Entry) :
    declarationsOf entries = (statementsOf entries).filterMap Statement.declaration? := by
  rw [statementsOf, List.filterMap_map]
  rfl

theorem elementsOf_eq (entries : List Entry) :
    elementsOf entries = (statementsOf entries).flatMap Statement.elements := by
  rw [statementsOf, List.flatMap_map]
  rfl

/-- The statements in some lines are those that are read from their texts. -/
theorem statementsOf_entriesOf (lines : List SourceLine) :
    statementsOf (entriesOf lines) =
      (lines.map (·.text)).filterMap fun text => (Statement.read text).toOption := by
  rw [statementsOf, entriesOf, List.map_filterMap, List.filterMap_map]
  refine List.filterMap_congr fun line _ => ?_
  rw [SourceLine.entry?, Option.map_map]
  exact Option.map_id'

theorem declarationsOf_perm (h : (statementsOf entries').Perm (statementsOf entries)) :
    (declarationsOf entries').Perm (declarationsOf entries) := by
  rw [declarationsOf_eq, declarationsOf_eq]
  exact h.filterMap _

theorem elementsOf_perm (h : (statementsOf entries').Perm (statementsOf entries)) :
    (elementsOf entries').Perm (elementsOf entries) := by
  rw [elementsOf_eq, elementsOf_eq]
  exact h.flatMap_right _

theorem statementsOf_perm (h : (lines'.map (·.text)).Perm (lines.map (·.text))) :
    (statementsOf (entriesOf lines')).Perm (statementsOf (entriesOf lines)) := by
  rw [statementsOf_entriesOf, statementsOf_entriesOf]
  exact h.filterMap _

/-- **Whether a diagram is consistent does not depend on the order of its lines.** -/
theorem Consistent.of_perm (h : Consistent lines)
    (hperm : (lines'.map (·.text)).Perm (lines.map (·.text))) : Consistent lines' := by
  have hstatements := statementsOf_perm hperm
  have hnames : (declaredNames (entriesOf lines')).Perm (declaredNames (entriesOf lines)) :=
    (declarationsOf_perm hstatements).map _
  have helements := elementsOf_perm hstatements
  refine ⟨?_, hnames.nodup_iff.2 h.nodup, ?_, ?_⟩
  · intro line' hline'
    obtain ⟨line, hline, htext⟩ := List.mem_map.1 (hperm.mem_iff.1 (List.mem_map_of_mem hline'))
    exact htext ▸ h.read line hline
  · intro a ha b hb
    exact h.agree a (helements.mem_iff.1 ha) b (helements.mem_iff.1 hb)
  · intro element helement name hlabel
    exact hnames.mem_iff.2 (h.declared element (helements.mem_iff.1 helement) name hlabel)

end Order

end ChainDiagram
