import ChainDiagram.Line.Token
import ChainDiagram.Statement

/-!
# Reading statements

The readers of this file take a whole line: it is a statement from its first to its last character,
or it holds a failure at some position.

## What is here

* `Declaration.read`: `name := "value"`.
* `Chain.read`: elements joined by `->` and `<-`. After the first element it goes on link by link
  (`Chain.readLinks`), and each link lies further to the right (`Element.lt_of_read`).
* `Statement.read`: either of the two; if neither fits, the failure of the one that got further.
-/

set_option autoImplicit false

namespace ChainDiagram

/-! ## Declarations -/

/-- Reads `name := "value"`. The name is a run of letters, and the value may not be empty. -/
def Declaration.read (line : Line) : Except (Failure Fault) Declaration :=
  let start := line.blankEnd 0
  if line.length ≤ start then .error ⟨.emptyDeclaration, start⟩
  else
    let (name, nameEnd) := line.readLetters start
    if name.isEmpty then .error ⟨.invalidVariableName, start⟩
    else
      let assign := line.blankEnd nameEnd
      if (line.drop assign).take 2 ≠ [':', '='] then .error ⟨.expectedAssignment, assign⟩
      else
        let valueStart := line.blankEnd (assign + 2)
        match line.readString valueStart with
        | .error e => .error e
        | .ok (value, valueEnd) =>
          if value.isEmpty then .error ⟨.emptyValue, valueStart⟩
          else
            let stop := line.blankEnd valueEnd
            if stop < line.length then .error ⟨.trailingCharacters, stop⟩
            else .ok ⟨name, value⟩

/-! ## Elements -/

/-- The element with a kind of label that was found between brackets. -/
def Element.ofBracketed (label : String → Label) : (String × Enclosure) × Nat → Element × Nat
  | ((text, enclosure), stop) => (⟨enclosure, label text⟩, stop)

/-- Reads an element: a string or a variable between brackets. A failure does not say which of them
was meant; it lies where the attempt that got further broke off. -/
def Element.read (line : Line) (pos : Nat) : Parsed Element :=
  match firstOrFurthest ((line.readLiteral pos).map (Element.ofBracketed .literal))
      ((line.readReference pos).map (Element.ofBracketed .reference)) with
  | .ok found => .ok found
  | .error e => .error ⟨.expectedElement, e.pos⟩

/-- An element takes up room. -/
theorem Element.lt_of_read {line : Line} {pos stop : Nat} {element : Element}
    (h : Element.read line pos = .ok (element, stop)) : pos < stop := by
  simp only [Element.read] at h
  split at h
  · rename_i found hfound
    cases h
    rcases firstOrFurthest_eq_ok hfound with h | h
    · cases hread : line.readLiteral pos with
      | error e => simp [hread, Except.map] at h
      | ok r =>
        simp only [hread, Except.map, ofBracketed, Except.ok.injEq, Prod.mk.injEq] at h
        exact h.2 ▸ Line.lt_of_readLiteral hread
    · cases hread : line.readReference pos with
      | error e => simp [hread, Except.map] at h
      | ok r =>
        simp only [hread, Except.map, ofBracketed, Except.ok.injEq, Prod.mk.injEq] at h
        exact h.2 ▸ Line.lt_of_readReference hread
  · simp at h

/-! ## Chains -/

/-- Reads the links that follow an element, up to the end of the line: each is an arrow and the
element to its right. -/
def Chain.readLinks (line : Line) (pos : Nat) :
    Except (Failure Fault) (List (Arrow × Element)) :=
  let next := line.blankEnd pos
  if line.length ≤ next then .ok []
  else
    match Arrow.ofSymbol? ((line.drop next).take 2) with
    | none => .error ⟨.expectedArrow, next⟩
    | some arrow =>
      let start := line.blankEnd (next + 2)
      if line.length ≤ start then .error ⟨.danglingLink, start⟩
      else
        match _h : Element.read line (next + 2) with
        | .error e => .error e
        | .ok (element, stop) =>
          match Chain.readLinks line stop with
          | .error e => .error e
          | .ok links => .ok ((arrow, element) :: links)
termination_by line.length - pos
decreasing_by
  have := Element.lt_of_read _h
  have := line.le_blankEnd pos
  omega

/-- Reads a chain: an element, and then the links to its right. -/
def Chain.read (line : Line) : Except (Failure Fault) Chain :=
  match Element.read line 0 with
  | .error e => .error e
  | .ok (first, stop) =>
    match Chain.readLinks line stop with
    | .error e => .error e
    | .ok links => .ok ⟨first :: links.map Prod.snd, links.map Prod.fst⟩

/-- There is one arrow between any two neighbours. -/
theorem Chain.length_elements_of_read {line : Line} {chain : Chain}
    (h : Chain.read line = .ok chain) : chain.elements.length = chain.arrows.length + 1 := by
  unfold Chain.read at h
  repeat' split at h
  all_goals cases h
  simp

/-! ## Statements -/

/-- Reads a line as a declaration or as a chain. -/
def Statement.read (line : Line) : Except (Failure Fault) Statement :=
  firstOrFurthest ((Declaration.read line).map .declaration) ((Chain.read line).map .chain)

end ChainDiagram
