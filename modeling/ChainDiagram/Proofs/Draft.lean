import Mathlib
import ChainDiagram.Proofs.Drawing
import ChainDiagram.Proofs.Grammar

/-!
# What a draft knows

A draft is made of tables, and each statement changes some of them. What they hold is said here
without any table, by the statements that have been taken: which names they declare, which literals
they hold, which variables they use, and which links they draw.

Declared names and the names of literals share one table. They do not get in each other's way, since
the former consist of letters (`Statement.writable_of_read`) and the latter of digits
(`not_isName_nameOfLiteral`).

## What is here

* `NoneBad`, `FirstBad`: the first member of a list that does not fit the members before it.
* `Entry`, and what some entries say: `declarationsOf`, `elementsOf`, `referencesOf`, `mentionsOf`.
* `Draft.Knows`, `Draft.Records`: what the tables hold. A statement that fits is recorded
  (`Draft.Records.add`), and `Statement.Refused` says which one does not.
* `Draft.Records.graph_eq_ok`, `Draft.Records.graph_eq_error`: how a draft ends.
-/

set_option autoImplicit false

namespace ChainDiagram

/-! ## The first bad member

A line is refused because of the lines before it, and a literal because of the elements before it.
So what is bad in a list depends on what stands in front of it. -/

section FirstBad

variable {α : Type} {bad : List α → α → Prop} {l : List α} {a : α}

/-- No member of a list is bad, given the members before it. -/
def NoneBad (bad : List α → α → Prop) (l : List α) : Prop :=
  ∀ before a after, l = before ++ a :: after → ¬bad before a

/-- The first member that is bad, and the members before it. -/
structure FirstBad (bad : List α → α → Prop) (l before : List α) (a : α) : Prop where
  exists_eq_append : ∃ after, l = before ++ a :: after
  noneBad : NoneBad bad before
  bad : bad before a

theorem noneBad_nil : NoneBad bad [] := fun before a after h => by
  cases before <;> cases h

theorem noneBad_concat_iff : NoneBad bad (l ++ [a]) ↔ NoneBad bad l ∧ ¬bad l a := by
  refine ⟨fun h => ⟨fun before b after heq => ?_, h l a [] rfl⟩, ?_⟩
  · exact h before b (after ++ [a]) (by rw [heq, List.append_assoc, List.cons_append])
  · rintro ⟨hnone, ha⟩ before b after heq
    rcases List.eq_nil_or_concat after with rfl | ⟨after, c, rfl⟩
    · obtain ⟨rfl, hcons⟩ := List.append_inj' heq rfl
      obtain rfl := List.head_eq_of_cons_eq hcons
      exact ha
    · have hsplit : l ++ [a] = (before ++ b :: after) ++ [c] := by
        rw [heq, List.append_assoc, List.cons_append, List.concat_eq_append]
      exact hnone before b after (List.append_inj' hsplit rfl).1

/-- **A list has a bad member, and so a first one, or none.** -/
theorem noneBad_or_firstBad (bad : List α → α → Prop) (l : List α) :
    NoneBad bad l ∨ ∃ before a, FirstBad bad l before a := by
  induction l using List.reverseRecOn with
  | nil => exact .inl noneBad_nil
  | append_singleton l a ih =>
    rcases ih with hnone | ⟨before, b, ⟨after, rfl⟩, hnone, hb⟩
    · by_cases ha : bad l a
      · exact .inr ⟨l, a, ⟨[], rfl⟩, hnone, ha⟩
      · exact .inl (noneBad_concat_iff.2 ⟨hnone, ha⟩)
    · exact .inr ⟨before, b, ⟨after ++ [a], by simp⟩, hnone, hb⟩

end FirstBad

/-! ## Names of literals -/

/-- The name of a literal is a number. -/
theorem isDigit_of_mem_nameOfLiteral {text : String} {enclosure : Enclosure} {c : Char}
    (h : c ∈ (nameOfLiteral text enclosure).toList) : c.isDigit := by
  rw [nameOfLiteral, Nat.toString_eq_repr, Nat.toList_repr] at h
  exact Nat.isDigit_of_mem_toDigits (by decide) (by decide) h

theorem not_isDigit_of_isAlpha {c : Char} (h : c.isAlpha) : ¬c.isDigit := by
  simp only [Char.isAlpha, Char.isUpper, Char.isLower, Char.isDigit, Bool.or_eq_true,
    Bool.and_eq_true, decide_eq_true_eq, ge_iff_le, UInt32.le_iff_toNat_le] at h ⊢
  have hA : 'A'.val.toNat = 65 := rfl
  have ha : 'a'.val.toNat = 97 := rfl
  have h9 : '9'.val.toNat = 57 := rfl
  omega

/-- **No literal has the name of a variable.** -/
theorem not_isName_nameOfLiteral (text : String) (enclosure : Enclosure) :
    ¬Line.IsName (nameOfLiteral text enclosure) := by
  intro h
  obtain ⟨c, rest, hname, hc⟩ := h.exists_cons
  have hmem : c ∈ (nameOfLiteral text enclosure).toList := hname ▸ List.mem_cons_self
  exact not_isDigit_of_isAlpha hc (isDigit_of_mem_nameOfLiteral hmem)

/-! ## What statements say -/

/-- What a line says, with the number of the line. -/
structure Entry where
  line : Nat
  statement : Statement
  deriving DecidableEq, Repr

/-- The declaration that a statement is, if it is one. -/
def Statement.declaration? : Statement → Option Declaration
  | .declaration d => some d
  | .chain _ => none

/-- The elements of a statement from left to right. A declaration has none. -/
def Statement.elements : Statement → List Element
  | .declaration _ => []
  | .chain c => c.elements

/-- What a statement mentions. -/
def Statement.mentions (line : Nat) : Statement → List Mention
  | .declaration _ => []
  | .chain c => c.mentions line

/-- The variable that an element uses, if it is no literal, with the line of the use. -/
def Element.uses (line : Nat) (element : Element) : List (String × Nat) :=
  match element.label with
  | .literal _ => []
  | .reference name => [(name, line)]

section Entries

variable (entries : List Entry)

/-- All declarations, in their order. -/
def declarationsOf : List Declaration :=
  entries.filterMap fun entry => entry.statement.declaration?

/-- All elements: line by line, and each line's from left to right. -/
def elementsOf : List Element := entries.flatMap fun entry => entry.statement.elements

/-- All uses of variables, in the order of the elements. -/
def referencesOf : List (String × Nat) :=
  entries.flatMap fun entry => entry.statement.elements.flatMap (Element.uses entry.line)

/-- All uses of nodes as sources, in their order. -/
def mentionsOf : List Mention := entries.flatMap fun entry => entry.statement.mentions entry.line

/-! One entry more adds what it says. -/

theorem declarationsOf_concat (entry : Entry) :
    declarationsOf (entries ++ [entry]) =
      declarationsOf entries ++ entry.statement.declaration?.toList := by
  rw [declarationsOf, List.filterMap_append, declarationsOf]
  cases h : entry.statement.declaration? <;> simp [h]

theorem elementsOf_concat (entry : Entry) :
    elementsOf (entries ++ [entry]) = elementsOf entries ++ entry.statement.elements := by
  rw [elementsOf, List.flatMap_append, List.flatMap_singleton, elementsOf]

theorem referencesOf_concat (entry : Entry) :
    referencesOf (entries ++ [entry]) =
      referencesOf entries ++ entry.statement.elements.flatMap (Element.uses entry.line) := by
  rw [referencesOf, List.flatMap_append, List.flatMap_singleton, referencesOf]

theorem mentionsOf_concat (entry : Entry) :
    mentionsOf (entries ++ [entry]) =
      mentionsOf entries ++ entry.statement.mentions entry.line := by
  rw [mentionsOf, List.flatMap_append, List.flatMap_singleton, mentionsOf]

end Entries

theorem exists_entry_of_mem_declarationsOf {entries : List Entry} {d : Declaration}
    (h : d ∈ declarationsOf entries) : ∃ entry ∈ entries, entry.statement = .declaration d := by
  obtain ⟨⟨line, statement⟩, hentry, hd⟩ := List.mem_filterMap.1 h
  cases statement with
  | declaration other => exact ⟨_, hentry, congrArg Statement.declaration (Option.some.inj hd)⟩
  | chain c => cases hd

/-- A statement that can be written. -/
def Statement.Writable : Statement → Prop
  | .declaration d => d.Writable
  | .chain c => c.Writable

/-- How a statement is written. -/
def Statement.tokens : Statement → List Line
  | .declaration d => d.tokens
  | .chain c => c.tokens

/-- **A statement is read exactly as it is spelled.** -/
theorem Statement.read_eq_ok_iff {line : Line} {statement : Statement} :
    Statement.read line = .ok statement ↔
      statement.Writable ∧ Spelled statement.tokens line := by
  cases statement with
  | declaration d => exact Statement.read_eq_declaration_iff.trans Declaration.read_eq_ok_iff
  | chain c => exact Statement.read_eq_chain_iff.trans Chain.read_eq_ok_iff

theorem Statement.writable_of_read {line : Line} {statement : Statement}
    (h : Statement.read line = .ok statement) : statement.Writable :=
  (Statement.read_eq_ok_iff.1 h).1

theorem Statement.Writable.isToken {statement : Statement} (h : statement.Writable) :
    ∀ token ∈ statement.tokens, IsToken token := by
  cases statement with
  | declaration d => exact Declaration.Writable.isToken h
  | chain c => exact Chain.Writable.isToken h

/-- Some declaration brings the name. -/
def Declared (declarations : List Declaration) (name : String) : Prop :=
  ∃ declaration ∈ declarations, declaration.name = name

/-- What a name stands for: it is declared so, or it is the name of a literal with that text. -/
def StandsFor (declarations : List Declaration) (elements : List Element) (name value : String) :
    Prop :=
  ⟨name, value⟩ ∈ declarations ∨ ∃ element ∈ elements,
    element.label = .literal value ∧ nameOfLiteral value element.enclosure = name

/-- An element is a literal that has the name of an earlier literal, but not its text. -/
def Element.Clashes (earlier : List Element) (element : Element) : Prop :=
  ∃ text, element.label = .literal text ∧ ∃ other ∈ earlier, ∃ otherText,
    other.label = .literal otherText ∧
      nameOfLiteral otherText other.enclosure = nameOfLiteral text element.enclosure ∧
        otherText ≠ text

/-! ## What the tables hold -/

/-- What a draft knows after some declarations, elements and uses of variables. Only the first of
several uses is remembered, which is enough to find the first use of any kind. -/
structure Draft.Knows (d : Draft) (declarations : List Declaration) (elements : List Element)
    (references : List (String × Nat)) : Prop where
  isName : ∀ declaration ∈ declarations, Line.IsName declaration.name
  value?_eq_some_iff : ∀ name value,
    d.bindings.value? name = some value ↔ StandsFor declarations elements name value
  find?_uses : ∀ p : String → Bool,
    (d.uses.find? fun use => p use.1) = references.find? fun use => p use.1

theorem Draft.knows_empty : Draft.empty.Knows [] [] [] :=
  ⟨nofun, by simp [Draft.empty, Bindings.empty, Bindings.value?, StandsFor], fun _ => rfl⟩

section Knows

variable {d : Draft} {declarations : List Declaration} {elements : List Element}
  {references : List (String × Nat)}

/-- Whatever literals there are, a variable is bound exactly if it is declared. -/
theorem Draft.Knows.value?_eq_none_iff (h : d.Knows declarations elements references)
    {name : String} (hname : Line.IsName name) :
    d.bindings.value? name = none ↔ ¬Declared declarations name := by
  rw [Option.eq_none_iff_forall_ne_some, ← not_exists_not, not_iff_not]
  simp only [not_not, h.value?_eq_some_iff]
  constructor
  · rintro ⟨value, hmem | ⟨element, -, -, rfl⟩⟩
    · exact ⟨⟨name, value⟩, hmem, rfl⟩
    · exact absurd hname (not_isName_nameOfLiteral _ _)
  · rintro ⟨declaration, hmem, rfl⟩
    exact ⟨declaration.value, .inl hmem⟩

/-- Whatever variables there are, the name of a literal is bound by literals. -/
theorem Draft.Knows.value?_nameOfLiteral_eq_some_iff (h : d.Knows declarations elements references)
    {text value : String} {enclosure : Enclosure} :
    d.bindings.value? (nameOfLiteral text enclosure) = some value ↔
      ∃ other ∈ elements, other.label = .literal value ∧
        nameOfLiteral value other.enclosure = nameOfLiteral text enclosure := by
  rw [h.value?_eq_some_iff, StandsFor, or_iff_right]
  exact fun hmem => not_isName_nameOfLiteral text enclosure (h.isName _ hmem)

/-! ## Taking a declaration -/

/-- **A name that is new is declared.** -/
theorem Draft.Knows.addDeclaration (h : d.Knows declarations elements references)
    {declaration : Declaration} (hname : Line.IsName declaration.name)
    (hnew : ¬Declared declarations declaration.name) (line : Nat) :
    ∃ d', d.addDeclaration line declaration = (.ok (), d') ∧
      d'.Knows (declarations ++ [declaration]) elements references ∧ d'.links = d.links := by
  have hnone := (h.value?_eq_none_iff hname).2 hnew
  refine ⟨{ d with bindings := d.bindings.bind declaration.name declaration.value },
    by simp only [Draft.addDeclaration, Bindings.bindNew?, hnone], ⟨?_, ?_, h.find?_uses⟩, rfl⟩
  · exact fun other hother => (List.mem_append.1 hother).elim (h.isName other)
      (fun hother => List.mem_singleton.1 hother ▸ hname)
  · intro name value
    have hnot : ¬StandsFor declarations elements declaration.name value := fun hstands => by
      rw [← h.value?_eq_some_iff, hnone] at hstands
      cases hstands
    rw [Bindings.value?_bind hnone, StandsFor, List.mem_append, List.mem_singleton, or_right_comm,
      ← StandsFor]
    by_cases heq : name = declaration.name
    · subst heq
      rw [if_pos rfl, or_iff_right hnot, Option.some.injEq]
      exact ⟨fun heq => by rw [← heq], fun heq => congrArg Declaration.value heq.symm⟩
    · rw [if_neg heq, h.value?_eq_some_iff, or_iff_left]
      exact fun hdeclaration => heq (congrArg Declaration.name hdeclaration)

/-- **A name that is declared already is refused**, and nothing changes. -/
theorem Draft.Knows.addDeclaration_of_declared (h : d.Knows declarations elements references)
    {declaration : Declaration} (hname : Line.IsName declaration.name)
    (hold : Declared declarations declaration.name) (line : Nat) :
    d.addDeclaration line declaration =
      (.error (.duplicateDeclaration line declaration.name), d) := by
  have hsome : d.bindings.value? declaration.name ≠ none := fun hnone =>
    (h.value?_eq_none_iff hname).1 hnone hold
  obtain ⟨value, hvalue⟩ := Option.ne_none_iff_exists'.1 hsome
  simp only [Draft.addDeclaration, Bindings.bindNew?, hvalue]

/-! ## Taking an element -/

theorem standsFor_concat_iff {element : Element} {name value : String} :
    StandsFor declarations (elements ++ [element]) name value ↔
      StandsFor declarations elements name value ∨
        element.label = .literal value ∧ nameOfLiteral value element.enclosure = name := by
  simp only [StandsFor, List.mem_append, List.mem_singleton, or_and_right, exists_or,
    exists_eq_left, or_assoc]

/-- A variable is remembered with its first use. -/
theorem Draft.Knows.find?_uses_addUse (h : d.Knows declarations elements references)
    (line : Nat) (name : String) (p : String → Bool) :
    ((d.addUse line name).uses.find? fun use => p use.1) =
      (references ++ [(name, line)]).find? fun use => p use.1 := by
  rw [Draft.addUse, List.find?_append, ← h.find?_uses]
  split
  · rename_i hused
    cases hfind : d.uses.find? fun use => p use.1 with
    | some use => rfl
    | none =>
      obtain ⟨use, huse, rfl⟩ := List.mem_map.1 hused
      have hp : ¬p use.1 := List.find?_eq_none.1 hfind use huse
      simp [hp]
  · rw [List.find?_append]

theorem Draft.addElement_literal {element : Element} {text : String}
    (hlabel : element.label = .literal text) (d : Draft) (line : Nat) :
    d.addElement line element =
      match d.bindings.bindSame? (nameOfLiteral text element.enclosure) text with
      | some bindings => (.ok (), { d with bindings })
      | none => (.error (.literalCollision line text), d) := by
  have hkey : element.key.name = nameOfLiteral text element.enclosure := by
    rw [Element.key, hlabel]
  cases hbind : d.bindings.bindSame? (nameOfLiteral text element.enclosure) text <;>
    simp [Draft.addElement, hlabel, hkey, hbind]

/-- **An element that does not clash is taken.** A literal is bound to its text, unless its name
stands for that text already, and a variable is remembered. -/
theorem Draft.Knows.addElement (h : d.Knows declarations elements references) {element : Element}
    (hfits : ¬element.Clashes elements) (line : Nat) :
    ∃ d', d.addElement line element = (.ok (), d') ∧
      d'.Knows declarations (elements ++ [element]) (references ++ element.uses line) ∧
        d'.links = d.links := by
  cases hlabel : element.label with
  | reference name =>
    have huses : element.uses line = [(name, line)] := by simp only [Element.uses, hlabel]
    refine ⟨d.addUse line name, by simp only [Draft.addElement, hlabel],
      ⟨h.isName, fun other value => ?_, fun p => ?_⟩, ?_⟩
    · have hbindings : (d.addUse line name).bindings = d.bindings := by
        rw [Draft.addUse]
        split <;> rfl
      rw [hbindings, h.value?_eq_some_iff, standsFor_concat_iff, hlabel]
      simp
    · rw [huses, h.find?_uses_addUse]
    · rw [Draft.addUse]
      split <;> rfl
  | literal text =>
    have huses : element.uses line = [] := by simp only [Element.uses, hlabel]
    rw [huses, List.append_nil, Draft.addElement_literal hlabel, Bindings.bindSame?]
    cases hvalue : d.bindings.value? (nameOfLiteral text element.enclosure) with
    | some bound =>
      obtain ⟨other, hother, hbound, hname⟩ := h.value?_nameOfLiteral_eq_some_iff.1 hvalue
      obtain rfl : bound = text := by
        by_contra hne
        exact hfits ⟨text, hlabel, other, hother, bound, hbound, hname, hne⟩
      refine ⟨d, by simp only [if_true], ⟨h.isName, fun name value => ?_, h.find?_uses⟩, rfl⟩
      rw [h.value?_eq_some_iff, standsFor_concat_iff, iff_self_or, hlabel]
      rintro ⟨hvalue, rfl⟩
      obtain rfl := Label.literal.inj hvalue
      exact .inr ⟨other, hother, hbound, hname⟩
    | none =>
      refine ⟨{ d with bindings := d.bindings.bind _ text }, rfl,
        ⟨h.isName, fun name value => ?_, h.find?_uses⟩, rfl⟩
      rw [Bindings.value?_bind hvalue, standsFor_concat_iff, ← h.value?_eq_some_iff, hlabel,
        Label.literal.injEq]
      by_cases heq : name = nameOfLiteral text element.enclosure
      · subst heq
        rw [if_pos rfl, hvalue, Option.some.injEq]
        constructor
        · rintro rfl
          exact .inr ⟨rfl, rfl⟩
        · rintro (hnone | ⟨rfl, -⟩)
          · cases hnone
          · rfl
      · rw [if_neg heq, iff_self_or]
        rintro ⟨rfl, hname⟩
        exact absurd hname.symm heq

/-- **An element that clashes is refused**, and nothing changes. -/
theorem Draft.Knows.addElement_of_clashes (h : d.Knows declarations elements references)
    {element : Element} {text : String} (hlabel : element.label = .literal text)
    (hclash : element.Clashes elements) (line : Nat) :
    d.addElement line element = (.error (.literalCollision line text), d) := by
  obtain ⟨text', hlabel', other, hother, bound, hbound, hname, hne⟩ := hclash
  obtain rfl := Label.literal.inj (hlabel.symm.trans hlabel')
  have hvalue := h.value?_nameOfLiteral_eq_some_iff.2 ⟨other, hother, hbound, hname⟩
  simp only [Draft.addElement_literal hlabel, Bindings.bindSame?, hvalue, if_neg hne]

/-! ## Taking a chain -/

theorem Draft.addElements_concat (d : Draft) (line : Nat) (chain : List Element)
    (element : Element) :
    d.addElements line (chain ++ [element]) =
      match d.addElements line chain with
      | (.error e, d) => (.error e, d)
      | (.ok (), d) => d.addElement line element := by
  induction chain generalizing d with
  | nil =>
    show d.addElements line [element] = d.addElement line element
    rw [Draft.addElements]
    rcases d.addElement line element with ⟨e | _, d'⟩ <;> rfl
  | cons first chain ih =>
    rw [List.cons_append, Draft.addElements, Draft.addElements]
    rcases d.addElement line first with ⟨e | _, d'⟩
    · rfl
    · exact ih d'

theorem Draft.addElements_append_of_error {d d' : Draft} {line : Nat} {chain : List Element}
    {e : Diagnostic} (h : d.addElements line chain = (.error e, d')) (rest : List Element) :
    d.addElements line (chain ++ rest) = (.error e, d') := by
  induction chain generalizing d with
  | nil => cases h
  | cons first chain ih =>
    rw [Draft.addElements] at h
    rw [List.cons_append, Draft.addElements]
    rcases hfirst : d.addElement line first with ⟨e' | _, d''⟩
    · rwa [hfirst] at h
    · rw [hfirst] at h
      exact ih h

/-- An element of a chain clashes with an earlier element, or with one to its left in the chain. -/
def ClashesAfter (earlier left : List Element) (element : Element) : Prop :=
  element.Clashes (earlier ++ left)

/-- **The elements of a chain are taken if none of them clashes.** The induction is from the right,
since the last element is judged by all the others. -/
theorem Draft.Knows.addElements (h : d.Knows declarations elements references)
    {chain : List Element} (hfits : NoneBad (ClashesAfter elements) chain) (line : Nat) :
    ∃ d', d.addElements line chain = (.ok (), d') ∧
      d'.Knows declarations (elements ++ chain)
        (references ++ chain.flatMap (Element.uses line)) ∧ d'.links = d.links := by
  induction chain using List.reverseRecOn with
  | nil =>
    refine ⟨d, rfl, ?_, rfl⟩
    rwa [List.flatMap_nil, List.append_nil, List.append_nil]
  | append_singleton chain element ih =>
    obtain ⟨hchain, helement⟩ := noneBad_concat_iff.1 hfits
    obtain ⟨middle, hmiddle, hknows, hlinks⟩ := ih hchain
    obtain ⟨d', hd', hknows', hlinks'⟩ := hknows.addElement helement line
    refine ⟨d', ?_, ?_, hlinks'.trans hlinks⟩
    · rw [Draft.addElements_concat, hmiddle]
      exact hd'
    · rwa [List.flatMap_append, List.flatMap_singleton, ← List.append_assoc, ← List.append_assoc]

/-- **The first element that clashes is refused**, whatever stands to the right of it. -/
theorem Draft.Knows.addElements_of_clashes (h : d.Knows declarations elements references)
    {chain left : List Element} {element : Element} {text : String}
    (hfirst : FirstBad (ClashesAfter elements) chain left element)
    (hlabel : element.label = .literal text) (line : Nat) :
    ∃ d', d.addElements line chain = (.error (.literalCollision line text), d') := by
  obtain ⟨⟨right, rfl⟩, hleft, hclash⟩ := hfirst
  obtain ⟨middle, hmiddle, hknows, -⟩ := h.addElements hleft line
  refine ⟨middle, ?_⟩
  rw [List.append_cons]
  refine Draft.addElements_append_of_error ?_ right
  rw [Draft.addElements_concat, hmiddle]
  exact hknows.addElement_of_clashes hlabel hclash line

end Knows

/-! ## Taking statements -/

/-- A draft has taken some statements, all of which can be written. -/
structure Draft.Records (d : Draft) (entries : List Entry) : Prop where
  writable : ∀ entry ∈ entries, entry.statement.Writable
  knows : d.Knows (declarationsOf entries) (elementsOf entries) (referencesOf entries)
  links : d.links = .ofMentions (mentionsOf entries)

theorem Draft.records_empty : Draft.empty.Records [] :=
  ⟨nofun, Draft.knows_empty, rfl⟩

/-- Why a statement does not fit the statements before it, and the error that it gets. -/
inductive Statement.Refused (entries : List Entry) (line : Nat) : Statement → Diagnostic → Prop
  /-- Its name is declared already. -/
  | duplicate {d : Declaration} (hold : Declared (declarationsOf entries) d.name) :
    Refused entries line (.declaration d) (.duplicateDeclaration line d.name)
  /-- One of its literals clashes, and none to the left of it does. -/
  | collision {c : Chain} {left : List Element} {element : Element} {text : String}
    (hfirst : FirstBad (ClashesAfter (elementsOf entries)) c.elements left element)
    (hlabel : element.label = .literal text) :
    Refused entries line (.chain c) (.literalCollision line text)

section Records

variable {d : Draft} {entries : List Entry}

/-- **A statement that is not refused is recorded.** -/
theorem Draft.Records.add (h : d.Records entries) {statement : Statement}
    (hstatement : statement.Writable) {line : Nat}
    (hfits : ∀ e, ¬statement.Refused entries line e) :
    ∃ d', d.add line statement = (.ok (), d') ∧ d'.Records (entries ++ [⟨line, statement⟩]) := by
  have hwritable : ∀ entry ∈ entries ++ [⟨line, statement⟩], entry.statement.Writable := by
    intro entry hentry
    rcases List.mem_append.1 hentry with hentry | hentry
    · exact h.writable entry hentry
    · rwa [List.mem_singleton.1 hentry]
  cases statement with
  | declaration declaration =>
    obtain ⟨d', hd', hknows, hlinks⟩ := h.knows.addDeclaration hstatement.name
      (fun hold => hfits _ (.duplicate hold)) line
    refine ⟨d', hd', hwritable, ?_, ?_⟩
    · rw [declarationsOf_concat, elementsOf_concat, referencesOf_concat]
      simpa only [Statement.declaration?, Statement.elements, Option.toList_some,
        List.flatMap_nil, List.append_nil] using hknows
    · rw [hlinks, h.links, mentionsOf_concat, Statement.mentions, List.append_nil]
  | chain chain =>
    have hnone : NoneBad (ClashesAfter (elementsOf entries)) chain.elements := by
      rcases noneBad_or_firstBad (ClashesAfter (elementsOf entries)) chain.elements with
        hnone | ⟨left, element, hfirst⟩
      · exact hnone
      · obtain ⟨text, hlabel, -⟩ := hfirst.bad
        exact absurd (.collision hfirst hlabel) (hfits _)
    obtain ⟨d', hd', hknows, hlinks⟩ := h.knows.addElements hnone line
    refine ⟨_, by rw [Draft.add, Draft.addChain, hd'], hwritable, ?_, ?_⟩
    · rw [declarationsOf_concat, elementsOf_concat, referencesOf_concat]
      simp only [Statement.declaration?, Statement.elements, Option.toList_none, List.append_nil]
      exact ⟨hknows.isName, hknows.value?_eq_some_iff, hknows.find?_uses⟩
    · show Draft.addLinks line d'.links _ _ = _
      rw [hlinks, h.links, Draft.addLinks_eq_foldl, mentionsOf_concat, Statement.mentions,
        LinkTable.ofMentions, LinkTable.ofMentions, List.foldl_append]

/-- **A statement that is refused gets its error.** -/
theorem Draft.Records.add_of_refused (h : d.Records entries) {statement : Statement}
    (hstatement : statement.Writable) {line : Nat} {e : Diagnostic}
    (hrefused : statement.Refused entries line e) :
    ∃ d', d.add line statement = (.error e, d') := by
  cases hrefused with
  | duplicate hold => exact ⟨d, h.knows.addDeclaration_of_declared hstatement.name hold line⟩
  | collision hfirst hlabel =>
    obtain ⟨d', hd'⟩ := h.knows.addElements_of_clashes hfirst hlabel line
    exact ⟨d', by rw [Draft.add, Draft.addChain, hd']⟩

/-! ## Ending a draft -/

/-- A use of a variable that is declared nowhere. -/
def Undeclared (entries : List Entry) (_before : List (String × Nat)) (use : String × Nat) : Prop :=
  ¬Declared (declarationsOf entries) use.1

/-- Whether a variable is declared does not depend on the uses before. -/
theorem noneBad_undeclared_iff {uses : List (String × Nat)} :
    NoneBad (Undeclared entries) uses ↔ ∀ use ∈ uses, Declared (declarationsOf entries) use.1 := by
  constructor
  · intro h use huse
    obtain ⟨before, after, rfl⟩ := List.append_of_mem huse
    exact not_not.1 (h before use after rfl)
  · rintro h before use after rfl hnot
    exact hnot (h use (List.mem_append_right before List.mem_cons_self))

/-- What is used is an element of some chain. -/
theorem exists_element_of_mem_referencesOf {use : String × Nat} (h : use ∈ referencesOf entries) :
    ∃ entry ∈ entries, ∃ element ∈ entry.statement.elements,
      element.label = .reference use.1 ∧ entry.line = use.2 := by
  obtain ⟨entry, hentry, h⟩ := List.mem_flatMap.1 h
  obtain ⟨element, helement, h⟩ := List.mem_flatMap.1 h
  refine ⟨entry, hentry, element, helement, ?_⟩
  rw [Element.uses] at h
  split at h
  · cases h
  · rename_i name hlabel
    rw [List.mem_singleton.1 h]
    exact ⟨hlabel, rfl⟩

theorem Statement.Writable.label {statement : Statement} (h : statement.Writable)
    {element : Element} (helement : element ∈ statement.elements) : element.label.Writable := by
  cases statement with
  | declaration d => cases helement
  | chain c => exact Chain.Writable.label h element helement

/-- A variable that is used has no binding exactly if it is declared nowhere. -/
theorem Draft.Records.isNone_value?_iff (h : d.Records entries) {use : String × Nat}
    (huse : use ∈ referencesOf entries) :
    (d.bindings.value? use.1).isNone ↔ ¬Declared (declarationsOf entries) use.1 := by
  obtain ⟨entry, hentry, element, helement, hlabel, -⟩ := exists_element_of_mem_referencesOf huse
  have hname := (h.writable entry hentry).label helement
  rw [hlabel] at hname
  rw [Option.isNone_iff_eq_none, h.knows.value?_eq_none_iff hname]

/-- **The first variable that is declared nowhere is an error**, with the line of its first use. -/
theorem Draft.Records.graph_eq_error (h : d.Records entries) {before : List (String × Nat)}
    {name : String} {line : Nat}
    (hfirst : FirstBad (Undeclared entries) (referencesOf entries) before (name, line)) :
    d.graph = .error (.undefinedVariable line name) := by
  obtain ⟨⟨after, hsplit⟩, hbefore, hname⟩ := hfirst
  have hfind : d.undeclared? = some (name, line) := by
    rw [Draft.undeclared?, h.knows.find?_uses fun name => (d.bindings.value? name).isNone,
      List.find?_eq_some_iff_append]
    have hmem : ∀ use ∈ before ++ [(name, line)], use ∈ referencesOf entries := by
      intro use huse
      rw [hsplit, List.append_cons]
      exact List.mem_append_left after huse
    refine ⟨(h.isNone_value?_iff (hmem _ (by simp))).2 hname, before, after, hsplit, ?_⟩
    intro use huse
    rw [Bool.not_eq_true', ← Bool.not_eq_true,
      h.isNone_value?_iff (hmem use (List.mem_append_left _ huse))]
    exact not_not.2 (noneBad_undeclared_iff.1 hbefore use huse)
  rw [Draft.graph, hfind]

/-- If every use is declared, the final check finds nothing. -/
theorem Draft.Records.undeclared?_eq_none (h : d.Records entries)
    (hdeclared : NoneBad (Undeclared entries) (referencesOf entries)) :
    d.undeclared? = none := by
  rw [Draft.undeclared?, h.knows.find?_uses fun name => (d.bindings.value? name).isNone,
    List.find?_eq_none]
  exact fun use huse => mt (h.isNone_value?_iff huse).1
    (not_not.2 (noneBad_undeclared_iff.1 hdeclared use huse))

/-- What the node of an element shows: the text of a literal, or what a variable is declared to
be. -/
def Element.Shows (declarations : List Declaration) (element : Element) (value : String) : Prop :=
  match element.label with
  | .literal text => value = text
  | .reference name => ⟨name, value⟩ ∈ declarations

/-- **The name of an element is bound to what its node shows.** -/
theorem Draft.Records.value?_key_eq_some_iff (h : d.Records entries) {element : Element}
    (helement : element ∈ elementsOf entries) (value : String) :
    d.bindings.value? element.key.name = some value ↔
      element.Shows (declarationsOf entries) value := by
  rw [Element.key, Element.Shows]
  cases hlabel : element.label with
  | literal text =>
    have htext := h.knows.value?_nameOfLiteral_eq_some_iff.2 ⟨element, helement, hlabel, rfl⟩
    show d.bindings.value? (nameOfLiteral text element.enclosure) = some value ↔ value = text
    rw [htext, Option.some.injEq, eq_comm]
  | reference name =>
    obtain ⟨entry, hentry, hmem⟩ := List.mem_flatMap.1 helement
    have hname := (h.writable entry hentry).label hmem
    rw [hlabel] at hname
    show d.bindings.value? name = some value ↔ ⟨name, value⟩ ∈ declarationsOf entries
    rw [h.knows.value?_eq_some_iff, StandsFor, or_iff_left]
    rintro ⟨other, -, -, rfl⟩
    exact not_isName_nameOfLiteral _ _ hname

/-- What the walk meets are elements. -/
theorem exists_element_of_mem_walkOf {key : NodeKey} (h : key ∈ walkOf (mentionsOf entries)) :
    ∃ element ∈ elementsOf entries, element.key = key := by
  obtain ⟨mention, hmention, hkey⟩ := mem_walkOf_iff.1 h
  obtain ⟨⟨line, statement⟩, hentry, hmention⟩ := List.mem_flatMap.1 hmention
  cases statement with
  | declaration d => cases hmention
  | chain c =>
    obtain ⟨element, helement, heq⟩ := Chain.exists_element_of_involves hmention hkey
    exact ⟨element, List.mem_flatMap_of_mem hentry helement, heq⟩

/-- The walk meets every element, since each is mentioned. -/
theorem Draft.Records.key_mem_walkOf (h : d.Records entries) {element : Element}
    (helement : element ∈ elementsOf entries) : element.key ∈ walkOf (mentionsOf entries) := by
  obtain ⟨⟨line, statement⟩, hentry, hmem⟩ := List.mem_flatMap.1 helement
  cases statement with
  | declaration d => cases hmem
  | chain c =>
    have hchain : c.Writable := h.writable _ hentry
    obtain ⟨mention, hmention, hinvolves⟩ :=
      Chain.exists_mention_of_mem hchain.length_elements hmem line
    exact mem_walkOf_iff.2 ⟨mention, List.mem_flatMap_of_mem hentry hmention, hinvolves⟩

/-- If every variable that is used is declared, every element shows something. -/
theorem exists_shows (hdeclared : NoneBad (Undeclared entries) (referencesOf entries))
    {element : Element} (helement : element ∈ elementsOf entries) :
    ∃ value, element.Shows (declarationsOf entries) value := by
  obtain ⟨entry, hentry, hmem⟩ := List.mem_flatMap.1 helement
  simp only [Element.Shows]
  cases hlabel : element.label with
  | literal text => exact ⟨text, rfl⟩
  | reference name =>
    have huse : (name, entry.line) ∈ referencesOf entries :=
      List.mem_flatMap_of_mem hentry (List.mem_flatMap_of_mem hmem (by simp [Element.uses, hlabel]))
    obtain ⟨⟨_, value⟩, hvalue, rfl⟩ := noneBad_undeclared_iff.1 hdeclared _ huse
    exact ⟨value, hvalue⟩

/-- **If every variable that is used is declared, there is a graph**, which is drawn along the walk
and with the arcs of what is mentioned. -/
theorem Draft.Records.graph_eq_ok (h : d.Records entries)
    (hdeclared : NoneBad (Undeclared entries) (referencesOf entries)) :
    d.graph = .ok (drawn (Draft.shown d.bindings) (walkOf (mentionsOf entries))
      (arcsOf (mentionsOf entries))) := by
  have hbound : ∀ key ∈ walkOf (mentionsOf entries), Draft.Bound d.bindings key := by
    intro key hkey
    obtain ⟨element, helement, rfl⟩ := exists_element_of_mem_walkOf hkey
    obtain ⟨value, hvalue⟩ := exists_shows hdeclared helement
    exact Option.isSome_of_eq_some ((h.value?_key_eq_some_iff helement value).2 hvalue)
  rw [Draft.graph, h.undeclared?_eq_none hdeclared, h.links]
  exact Draft.foldlM_placeRow_ofMentions hbound

end Records

end ChainDiagram
