import ChainDiagram.Enclosure
import ChainDiagram.Failure
import ChainDiagram.Line

/-!
# The tokens of a line

Each reader takes a line and the position at which to start, skips blanks, and answers the token
that it has read together with the position behind it. A start behind the end of the line is
allowed: nothing is left to read there.

## What is here

* `Line.readLetters`, `Line.readName`: a run of letters, which may be empty or not.
* `Line.readString`: a text between quotes.
* `Line.readReference`, `Line.readLiteral`: a name or a string between brackets.

A reader never steps back, and one that reads a token moves on (`Line.lt_of_readString`,
`Line.lt_of_readBracketed`); the statement readers end because of it.
-/

set_option autoImplicit false

namespace ChainDiagram

/-- What has been read and the position behind it, or the failure. -/
abbrev Parsed (α : Type) : Type := Except (Failure Fault) (α × Nat)

namespace Line

/-! ## Names -/

/-- The run of ASCII letters after optional blanks. Without a letter the run is empty and the
position stays where it was. -/
def readLetters (line : Line) (pos : Nat) : String × Nat :=
  let start := line.blankEnd pos
  let letters := (line.drop start).takeWhile Char.isAlpha
  if letters.isEmpty then ("", pos) else (String.ofList letters, start + letters.length)

theorem le_readLetters (line : Line) (pos : Nat) : pos ≤ (line.readLetters pos).2 := by
  have := line.le_blankEnd pos
  simp only [readLetters]
  split <;> simp only <;> omega

/-- A name: at least one letter. -/
def readName (line : Line) (pos : Nat) : Parsed String :=
  let (name, stop) := line.readLetters pos
  if name.isEmpty then .error ⟨.expectedVariable, line.blankEnd pos⟩ else .ok (name, stop)

theorem le_of_readName {line : Line} {pos stop : Nat} {name : String}
    (h : line.readName pos = .ok (name, stop)) : pos ≤ stop := by
  have := line.le_readLetters pos
  simp only [readName] at h
  split at h <;> simp only [Except.ok.injEq, Prod.mk.injEq, reduceCtorEq] at h
  omega

/-! ## Strings -/

/-- A text between two quotes, after optional blanks. Nothing can be escaped: the text ends at the
next quote. -/
def readString (line : Line) (pos : Nat) : Parsed String :=
  let start := line.blankEnd pos
  match line.drop start with
  | '"' :: body =>
    let text := body.takeWhile (· ≠ '"')
    if text.length < body.length then .ok (String.ofList text, start + text.length + 2)
    else .error ⟨.invalidString, start⟩
  | _ => .error ⟨.invalidString, start⟩

theorem readString_of_quote {line body : Line} {pos : Nat}
    (h : line.drop (line.blankEnd pos) = '"' :: body) :
    line.readString pos =
      if (body.takeWhile (· ≠ '"')).length < body.length then
        .ok (String.ofList (body.takeWhile (· ≠ '"')),
          line.blankEnd pos + (body.takeWhile (· ≠ '"')).length + 2)
      else .error ⟨.invalidString, line.blankEnd pos⟩ := by
  simp only [readString, h]

theorem readString_of_not_quote {line : Line} {pos : Nat}
    (h : (line.drop (line.blankEnd pos)).head? ≠ some '"') :
    line.readString pos = .error ⟨.invalidString, line.blankEnd pos⟩ := by
  simp only [readString]
  split
  · rename_i body hdrop
    rw [hdrop] at h
    exact absurd rfl h
  · rfl

theorem lt_of_readString {line : Line} {pos stop : Nat} {text : String}
    (h : line.readString pos = .ok (text, stop)) : pos < stop := by
  have := line.le_blankEnd pos
  simp only [readString] at h
  repeat' split at h
  all_goals simp only [Except.ok.injEq, Prod.mk.injEq, reduceCtorEq] at h
  omega

/-! ## Brackets -/

/-- An opener, what `inner` reads, and the closer of the same enclosure, with blanks allowed in
front of each. -/
def readBracketed (inner : Line → Nat → Parsed String) (line : Line) (pos : Nat) :
    Parsed (String × Enclosure) :=
  let start := line.blankEnd pos
  match (line.drop start).head?.bind Enclosure.ofOpener? with
  | none => .error ⟨.notEnclosed, start⟩
  | some enclosure =>
    match inner line (start + 1) with
    | .error e => .error e
    | .ok (text, after) =>
      let close := line.blankEnd after
      if (line.drop close).head? = some enclosure.closer then .ok ((text, enclosure), close + 1)
      else .error ⟨.invalidEnclosure, close⟩

theorem lt_of_readBracketed {inner : Line → Nat → Parsed String} {line : Line} {pos stop : Nat}
    {item : String × Enclosure}
    (hinner : ∀ {p q : Nat} {text : String}, inner line p = .ok (text, q) → p ≤ q)
    (h : readBracketed inner line pos = .ok (item, stop)) : pos < stop := by
  have hstart := line.le_blankEnd pos
  simp only [readBracketed] at h
  split at h
  · simp at h
  · split at h
    · simp at h
    · rename_i text after hin
      have hafter := hinner hin
      have hclose := line.le_blankEnd after
      split at h <;> simp only [Except.ok.injEq, Prod.mk.injEq, reduceCtorEq] at h
      omega

/-- A name between brackets, such as `[name]`. -/
def readReference (line : Line) (pos : Nat) : Parsed (String × Enclosure) :=
  readBracketed readName line pos

theorem lt_of_readReference {line : Line} {pos stop : Nat} {item : String × Enclosure}
    (h : line.readReference pos = .ok (item, stop)) : pos < stop :=
  lt_of_readBracketed le_of_readName h

/-- A string between brackets, such as `["text"]`. -/
def readLiteral (line : Line) (pos : Nat) : Parsed (String × Enclosure) :=
  readBracketed readString line pos

theorem lt_of_readLiteral {line : Line} {pos stop : Nat} {item : String × Enclosure}
    (h : line.readLiteral pos = .ok (item, stop)) : pos < stop :=
  lt_of_readBracketed (fun h => Nat.le_of_lt (lt_of_readString h)) h

end Line

end ChainDiagram
