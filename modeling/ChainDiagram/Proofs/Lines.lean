import Mathlib.Data.List.DropRight
import ChainDiagram.Proofs.Spelling
import ChainDiagram.Source

/-!
# The lines of a text, and what is around them

`sourceLines` cuts a text at its line feeds and passes over what does not matter: whitespace at the
ends of a line, a carriage return in front of a line feed, and an empty rest behind the last line
feed. Here are the lines of a text as one would count them, and what they say does not depend on how
they are ended.

## What is here

* `Trimmed`: a text without whitespace at its ends. A line is such a text with whitespace around it
  (`exists_eq_append_trim`), and trimming it gives that text back (`trim_append`).
* `SourceLine.ofRaw?_append`: what a line says depends on the text between the whitespace. It says
  nothing if it is `Silent` (`SourceLine.ofRaw?_eq_none_iff`).
* `linesOf`: the lines of a text. `sourceLines_eq`: they are what is read.
-/

set_option autoImplicit false

namespace ChainDiagram

/-! ## Whitespace at the ends -/

/-- A text of whitespace only. -/
def Spaces (text : List Char) : Prop := ∀ c ∈ text, isWhitespace c

theorem Spaces.append {text rest : List Char} (h : Spaces text) (hrest : Spaces rest) :
    Spaces (text ++ rest) :=
  List.forall_mem_append.2 ⟨h, hrest⟩

/-- A text that neither begins nor ends with whitespace. -/
structure Trimmed (text : List Char) : Prop where
  head : ∀ c ∈ text.head?, ¬isWhitespace c
  last : ∀ c ∈ text.getLast?, ¬isWhitespace c

/-- A text may begin with one trimmed text and end with another. -/
theorem Trimmed.append {text rest : List Char} (htext : Trimmed text) (hne : text ≠ [])
    (hrest : Trimmed rest) (hne' : rest ≠ []) (between : List Char) :
    Trimmed (text ++ (between ++ rest)) := by
  constructor
  · rw [List.head?_append_of_ne_nil _ hne]
    exact htext.head
  · rw [← List.append_assoc, List.getLast?_append_of_ne_nil _ hne']
    exact hrest.last

/-- What is dropped at the front ends where something else begins. -/
theorem dropWhile_append_of_head? {p : Char → Bool} {run rest : List Char} (hrun : ∀ c ∈ run, p c)
    (hrest : ∀ c ∈ rest.head?, ¬p c) : (run ++ rest).dropWhile p = rest := by
  rw [List.dropWhile_append_of_pos hrun]
  cases rest with
  | nil => rfl
  | cons c rest => exact List.dropWhile_cons_of_neg (hrest c rfl)

/-- **Trimming takes away the whitespace at the ends**, and nothing else. -/
theorem trim_append {front text back : List Char} (hfront : Spaces front) (hback : Spaces back)
    (htext : Trimmed text) : trim (front ++ (text ++ back)) = text := by
  cases text with
  | nil =>
    have hall : (front ++ ([] ++ back)).dropWhile isWhitespace = [] :=
      List.dropWhile_eq_nil_iff.2 (hfront.append hback)
    rw [trim, hall]
    rfl
  | cons c text =>
    have hstart : (front ++ (c :: text ++ back)).dropWhile isWhitespace = c :: text ++ back :=
      dropWhile_append_of_head? hfront htext.head
    have hstop : (back.reverse ++ (c :: text).reverse).dropWhile isWhitespace =
        (c :: text).reverse := by
      refine dropWhile_append_of_head? (fun d hd => hback d (List.mem_reverse.1 hd)) ?_
      rw [List.head?_reverse]
      exact htext.last
    rw [trim, hstart, List.reverse_append, hstop, List.reverse_reverse]

theorem trimmed_trim (raw : List Char) : Trimmed (trim raw) := by
  refine ⟨fun c hc => ?_, fun c hc => ?_⟩
  · -- what is left at the end is a prefix of what is left at the front
    obtain ⟨rest, hrest⟩ := List.rdropWhile_prefix isWhitespace (raw.dropWhile isWhitespace)
    have hhead : c ∈ (raw.dropWhile isWhitespace).head? := by
      rw [← hrest]
      exact List.mem_head?_append_of_mem_head? hc
    exact Line.not_of_mem_head?_dropWhile hhead
  · rw [trim, List.getLast?_reverse] at hc
    exact Line.not_of_mem_head?_dropWhile hc

/-- There is nothing left to trim. -/
theorem trim_trim (raw : List Char) : trim (trim raw) = trim raw := by
  have hnone : Spaces [] := fun c hc => nomatch hc
  have h := trim_append hnone hnone (trimmed_trim raw)
  rwa [List.nil_append, List.append_nil] at h

/-- **A line is a trimmed text with whitespace around it.** -/
theorem exists_eq_append_trim (raw : List Char) :
    ∃ front back, Spaces front ∧ Spaces back ∧ raw = front ++ (trim raw ++ back) := by
  refine ⟨raw.takeWhile isWhitespace, (raw.dropWhile isWhitespace).rtakeWhile isWhitespace,
    fun c hc => List.mem_takeWhile_imp hc, fun c hc => List.mem_rtakeWhile_imp hc, ?_⟩
  have hback := List.rdropWhile_append_rtakeWhile (p := isWhitespace)
    (l := raw.dropWhile isWhitespace)
  show raw = raw.takeWhile isWhitespace ++
    ((raw.dropWhile isWhitespace).rdropWhile isWhitespace ++ _)
  rw [hback, List.takeWhile_append_dropWhile]

/-- The whitespace at the end of a line is the whitespace behind its trimmed text. -/
theorem rtakeWhile_append {front text back : List Char} (hback : Spaces back)
    (htext : Trimmed text) (hne : text ≠ []) :
    (front ++ (text ++ back)).rtakeWhile isWhitespace = back := by
  have hlast : ∀ c ∈ (text.reverse ++ front.reverse).head?, ¬isWhitespace c := by
    rw [List.head?_append_of_ne_nil _ (by simpa using hne), List.head?_reverse]
    exact htext.last
  rw [List.rtakeWhile, List.reverse_append, List.reverse_append, List.append_assoc,
    Line.takeWhile_append_of_head? (fun c hc => hback c (List.mem_reverse.1 hc)) hlast,
    List.reverse_reverse]

/-! ## What a line says -/

/-- **What a line says is between the whitespace at its ends.** In front of it, only the number of
characters counts. -/
theorem SourceLine.ofRaw?_append {front text back : Line} (number : Nat) (hfront : Spaces front)
    (hback : Spaces back) (htext : Trimmed text) :
    SourceLine.ofRaw? number (front ++ (text ++ back)) =
      if text.isEmpty ∨ text.head? = some '#' then none
      else some ⟨number, front.length, Line.withoutComment text⟩ := by
  simp only [SourceLine.ofRaw?, trim_append hfront hback htext]
  split
  · rfl
  · rename_i hsays
    have hne : text ≠ [] := fun hnil => hsays (.inl (by rw [hnil]; rfl))
    have hhead : ∀ c ∈ (text ++ back).head?, ¬isWhitespace c := by
      rw [List.head?_append_of_ne_nil _ hne]
      exact htext.head
    rw [Line.takeWhile_append_of_head? hfront hhead]

/-- A comment begins with a `#`, also without the whitespace at its end. -/
theorem exists_comment_eq (comment : Line) :
    ∃ rest back, Spaces back ∧ '#' :: comment = '#' :: rest ++ back ∧ Trimmed ('#' :: rest) := by
  obtain ⟨front, back, hfront, hback, heq⟩ := exists_eq_append_trim ('#' :: comment)
  have htext := trimmed_trim ('#' :: comment)
  generalize trim ('#' :: comment) = text at heq htext
  have hhash : ¬isWhitespace '#' := by decide
  cases front with
  | cons c front =>
    obtain rfl : '#' = c := (List.cons.inj heq).1
    exact absurd (hfront '#' List.mem_cons_self) hhash
  | nil =>
    cases text with
    | nil =>
      have hmem : '#' ∈ back := by
        rw [List.nil_append, List.nil_append] at heq
        exact heq ▸ List.mem_cons_self
      exact absurd (hback '#' hmem) hhash
    | cons c text =>
      obtain rfl : '#' = c := (List.cons.inj heq).1
      exact ⟨text, back, hback, heq, htext⟩

/-- A line that is blank, or that holds only a comment. -/
def Silent (raw : Line) : Prop :=
  Spaces raw ∨ ∃ front comment, Spaces front ∧ raw = front ++ '#' :: comment

/-- **A line says nothing exactly if it is blank or holds only a comment.** -/
theorem SourceLine.ofRaw?_eq_none_iff {number : Nat} {raw : Line} :
    SourceLine.ofRaw? number raw = none ↔ Silent raw := by
  constructor
  · intro hnone
    obtain ⟨front, back, hfront, hback, hraw⟩ := exists_eq_append_trim raw
    have htext := trimmed_trim raw
    generalize trim raw = text at hraw htext
    subst hraw
    rw [ofRaw?_append number hfront hback htext] at hnone
    split at hnone
    · rename_i hsilent
      rcases hsilent with hempty | hcomment
      · rw [List.isEmpty_iff.1 hempty]
        exact .inl (hfront.append hback)
      · obtain ⟨rest, rfl⟩ := List.head?_eq_some_iff.1 hcomment
        exact .inr ⟨front, rest ++ back, hfront, rfl⟩
    · cases hnone
  · rintro (hraw | ⟨front, comment, hfront, rfl⟩)
    · have hnone : Spaces [] := fun c hc => nomatch hc
      have hempty : Trimmed [] := ⟨by simp, by simp⟩
      have hblank := ofRaw?_append number hraw hnone hempty
      rwa [List.append_nil, List.append_nil, if_pos (.inl rfl)] at hblank
    · obtain ⟨rest, back, hback, hcomment, hrest⟩ := exists_comment_eq comment
      rw [hcomment, ofRaw?_append number hfront hback hrest, if_pos (.inr rfl)]

/-- More whitespace at the end of a line does not matter. -/
theorem SourceLine.ofRaw?_append_spaces (number : Nat) (raw : Line) {spaces : Line}
    (h : Spaces spaces) :
    SourceLine.ofRaw? number (raw ++ spaces) = SourceLine.ofRaw? number raw := by
  obtain ⟨front, back, hfront, hback, hraw⟩ := exists_eq_append_trim raw
  have htext := trimmed_trim raw
  generalize trim raw = text at hraw htext
  subst hraw
  rw [List.append_assoc, List.append_assoc, ofRaw?_append number hfront (hback.append h) htext,
    ofRaw?_append number hfront hback htext]

/-- The number of a line is only carried along. -/
theorem SourceLine.ofRaw?_eq_map (number : Nat) (raw : Line) :
    SourceLine.ofRaw? number raw =
      (SourceLine.ofRaw? 0 raw).map fun line => { line with number } := by
  simp only [SourceLine.ofRaw?]
  split <;> rfl

/-! ## The lines of a text -/

/-- A line without the carriage return that belongs to the end of the line. -/
def withoutReturn (raw : Line) : Line := if raw.getLast? = some '\r' then raw.dropLast else raw

/-- **The lines of a text.** A line ends with a line feed, or with a carriage return and a line
feed; only the last line may end with the text. -/
def linesOf (source : String) : List Line :=
  let parts := source.toList.splitOn '\n'
  parts.dropLast.map withoutReturn ++ (parts.getLast?.filter (· ≠ [])).toList

theorem significantLines_append (number : Nat) (raws rest : List Line) :
    significantLines number (raws ++ rest) =
      significantLines number raws ++ significantLines (number + raws.length) rest := by
  induction raws generalizing number with
  | nil => rfl
  | cons raw raws ih =>
    rw [List.cons_append, significantLines, significantLines, ih, List.append_assoc,
      List.length_cons, Nat.add_assoc, Nat.add_comm 1]

theorem significantLines_map {change : Line → Line}
    (h : ∀ number raw, SourceLine.ofRaw? number (change raw) = SourceLine.ofRaw? number raw)
    (number : Nat) (raws : List Line) :
    significantLines number (raws.map change) = significantLines number raws := by
  induction raws generalizing number with
  | nil => rfl
  | cons raw raws ih => rw [List.map_cons, significantLines, significantLines, h, ih]

theorem ofRaw?_withoutReturn (number : Nat) (raw : Line) :
    SourceLine.ofRaw? number (withoutReturn raw) = SourceLine.ofRaw? number raw := by
  rw [withoutReturn]
  split
  · rename_i hlast
    obtain ⟨front, rfl⟩ := List.getLast?_eq_some_iff.1 hlast
    have hreturn : Spaces ['\r'] := List.forall_mem_singleton.2 (by decide)
    rw [List.dropLast_concat, SourceLine.ofRaw?_append_spaces number front hreturn]
  · rfl

/-- **The lines of a text are what is read.** -/
theorem sourceLines_eq (source : String) :
    sourceLines source = significantLines 1 (linesOf source) := by
  have hne : source.toList.splitOn '\n' ≠ [] := List.splitOn_ne_nil _ _
  simp only [sourceLines, linesOf]
  generalize source.toList.splitOn '\n' = parts at hne ⊢
  obtain ⟨front, last, rfl⟩ := (List.eq_nil_or_concat parts).resolve_left hne
  rw [List.concat_eq_append, List.dropLast_concat, List.getLast?_concat, significantLines_append,
    significantLines_append, significantLines_map ofRaw?_withoutReturn, List.length_map]
  refine congrArg (significantLines 1 front ++ ·) ?_
  cases last <;> rfl

end ChainDiagram
