import ChainDiagram.Proofs.Repair

/-!
# Reading by one character

A line is tried as a declaration and as a chain, an element as a literal and as a reference, and of
two failures the one further to the right is reported. No attempt is needed to know which of the two
that is. One character decides: a line that begins with an opener is read as a chain and any other
as a declaration, and an element that goes on with a quote is read as a literal and any other as a
reference. The other attempt breaks off in front of that character, so it never says more.

## What is here

* `Line.next?`: the character that decides.
* `firstOrFurthest_eq_first`, `firstOrFurthest_eq_second`: one of two attempts says it all.
* `Element.read_eq_ofAttempt`: the attempt that an element is read by.
* `Element.le_pos_of_read`, `Chain.lt_pos_of_read`, `Declaration.le_pos_of_read`: how far an attempt
  gets.
* `arbitration_is_prediction`: statements and elements are read by the attempt that the character
  calls for.
-/

set_option autoImplicit false

namespace ChainDiagram

/-! ## The next character -/

namespace Line

variable {line : Line} {pos : Nat}

/-- The first character from a position on that is no blank. -/
def next? (line : Line) (pos : Nat) : Option Char := (line.drop pos).find? fun c => !isBlank c

/-- It stands behind the blanks. -/
theorem next?_eq_head? (line : Line) (pos : Nat) :
    line.next? pos = (line.drop (line.blankEnd pos)).head? := by
  rw [next?, List.find?_eq_head?_dropWhile_not, drop_blankEnd]
  simp only [Bool.not_not]

theorem next?_blankEnd (line : Line) (pos : Nat) :
    line.next? (line.blankEnd pos) = line.next? pos := by
  rw [next?_eq_head?, next?_eq_head?, blankEnd_blankEnd]

theorem blankEnd_lt_of_next? {c : Char} (h : line.next? pos = some c) :
    line.blankEnd pos < line.length := by
  rw [next?_eq_head?] at h
  obtain ⟨rest, hdrop⟩ := List.head?_eq_some_iff.1 h
  rw [← Nat.not_le, ← List.drop_eq_nil_iff, hdrop]
  exact List.cons_ne_nil _ _

/-- No string begins with anything but a quote. -/
theorem readString_of_next? (h : line.next? pos ≠ some '"') :
    line.readString pos = .error ⟨.invalidString, line.blankEnd pos⟩ := by
  rw [next?_eq_head?] at h
  exact readString_of_not_quote h

/-- No letters are found where something else comes next. -/
theorem readLetters_of_next? (h : ∀ c ∈ line.next? pos, ¬c.isAlpha) :
    line.readLetters pos = ("", pos) := by
  have hnone : (line.drop (line.blankEnd pos)).takeWhile Char.isAlpha = [] := by
    rw [next?_eq_head?] at h
    exact @takeWhile_append_of_head? _ [] _ (List.forall_mem_nil _) h
  simp only [readLetters, hnone, List.isEmpty_nil, if_true]

theorem readName_of_next? (h : ∀ c ∈ line.next? pos, ¬c.isAlpha) :
    line.readName pos = .error ⟨.expectedVariable, line.blankEnd pos⟩ := by
  rw [readName, readLetters_of_next? h]
  rfl

end Line

/-! ## One of two attempts -/

section Attempts

variable {F G α : Type} {first second : Except (Failure F) α}

/-- A second attempt that gets no further than the first one is as good as none. -/
theorem firstOrFurthest_eq_first {e₂ : Failure F} (hsecond : second = .error e₂)
    (hle : ∀ e₁, first = .error e₁ → e₂.pos ≤ e₁.pos) : firstOrFurthest first second = first := by
  obtain e₁ | a := first
  · have hnot : ¬e₁.pos < e₂.pos := Nat.not_lt.2 (hle e₁ rfl)
    rw [hsecond, firstOrFurthest_error_error, Failure.further, if_neg hnot]
  · rfl

/-- So is a first attempt that does not get as far as the second one. -/
theorem firstOrFurthest_eq_second {e₁ : Failure F} (hfirst : first = .error e₁)
    (hlt : ∀ e₂, second = .error e₂ → e₁.pos < e₂.pos) : firstOrFurthest first second = second := by
  obtain e₂ | a := second
  · rw [hfirst, firstOrFurthest_error_error, Failure.further, if_pos (hlt e₂ rfl)]
  · rw [hfirst, firstOrFurthest_error_ok]

/-- Where only the position of a failure is reported, the second attempt may also get just as far as
the first one. -/
theorem mapError_firstOrFurthest_eq_second {report : Failure F → G} {e₁ : Failure F}
    (hreport : ∀ e e' : Failure F, e.pos = e'.pos → report e = report e')
    (hfirst : first = .error e₁) (hle : ∀ e₂, second = .error e₂ → e₁.pos ≤ e₂.pos) :
    (firstOrFurthest first second).mapError report = second.mapError report := by
  by_cases hsame : ∃ e₂, second = .error e₂ ∧ e₁.pos = e₂.pos
  · obtain ⟨e₂, hsecond, hpos⟩ := hsame
    have hnot : ¬e₁.pos < e₂.pos := by omega
    rw [hfirst, hsecond, firstOrFurthest_error_error, Failure.further, if_neg hnot]
    exact congrArg Except.error (hreport e₁ e₂ hpos)
  · rw [firstOrFurthest_eq_second hfirst]
    intro e₂ hsecond
    exact lt_of_le_of_ne (hle e₂ hsecond) fun hpos => hsame ⟨e₂, hsecond, hpos⟩

end Attempts

/-! ## Elements -/

namespace Line

variable {line : Line} {pos : Nat} {inner : Line → Nat → Parsed String}

/-- Without an opener, there is nothing to read between brackets. -/
theorem readBracketed_of_not_opener (h : (line.next? pos).bind Enclosure.ofOpener? = none) :
    readBracketed inner line pos = .error ⟨.notEnclosed, line.blankEnd pos⟩ := by
  rw [next?_eq_head?] at h
  simp only [readBracketed, h]

/-- Behind an opener, the inner reader fails for both. -/
theorem readBracketed_of_inner {enclosure : Enclosure} {e : Failure Fault}
    (hopener : line.next? pos = some enclosure.opener)
    (hinner : inner line (line.blankEnd pos + 1) = .error e) :
    readBracketed inner line pos = .error e := by
  rw [next?_eq_head?] at hopener
  simp only [readBracketed, hopener, Option.bind_some, Enclosure.ofOpener?_opener, hinner]

/-- Behind an opener, reading breaks off in front of what is inside at the earliest. -/
theorem le_pos_of_readBracketed {enclosure : Enclosure} {e : Failure Fault}
    (hok : ∀ start text after, inner line start = .ok (text, after) → line.blankEnd start ≤ after)
    (herror : ∀ start e, inner line start = .error e → e.pos = line.blankEnd start)
    (hopener : line.next? pos = some enclosure.opener)
    (h : readBracketed inner line pos = .error e) :
    line.blankEnd (line.blankEnd pos + 1) ≤ e.pos := by
  rw [next?_eq_head?] at hopener
  simp only [readBracketed, hopener, Option.bind_some, Enclosure.ofOpener?_opener] at h
  split at h
  · rename_i e' hinner
    rw [← Except.error.inj h, herror _ e' hinner]
  · rename_i text after hinner
    split at h
    · cases h
    · rw [← Except.error.inj h]
      exact (hok _ text after hinner).trans (line.le_blankEnd after)

theorem le_pos_of_readLiteral {enclosure : Enclosure} {e : Failure Fault}
    (hopener : line.next? pos = some enclosure.opener) (h : line.readLiteral pos = .error e) :
    line.blankEnd (line.blankEnd pos + 1) ≤ e.pos := by
  refine le_pos_of_readBracketed (fun start text after hread => ?_) (fun start e hread => ?_)
    hopener h
  · rw [(readString_eq_ok_iff.1 hread).1.2]
    exact Nat.le_add_right _ _
  · rw [eq_of_readString_eq_error hread]

theorem le_pos_of_readReference {enclosure : Enclosure} {e : Failure Fault}
    (hopener : line.next? pos = some enclosure.opener) (h : line.readReference pos = .error e) :
    line.blankEnd (line.blankEnd pos + 1) ≤ e.pos := by
  refine le_pos_of_readBracketed (fun start text after hread => ?_) (fun start e hread => ?_)
    hopener h
  · rw [(readName_eq_ok_iff.1 hread).1.2]
    exact Nat.le_add_right _ _
  · rw [eq_of_readName_eq_error hread]

end Line

/-- What an attempt to read an element comes to. A failure keeps its position only. -/
def Element.ofAttempt (label : String → Label) (attempt : Parsed (String × Enclosure)) :
    Parsed Element :=
  (attempt.map (Element.ofBracketed label)).mapError fun e => ⟨.expectedElement, e.pos⟩

namespace Element

variable {line : Line} {pos : Nat}

theorem read_eq_mapError (line : Line) (pos : Nat) :
    Element.read line pos =
      (firstOrFurthest ((line.readLiteral pos).map (ofBracketed .literal))
        ((line.readReference pos).map (ofBracketed .reference))).mapError
          fun e => ⟨.expectedElement, e.pos⟩ := by
  rw [Element.read]
  split
  · rename_i found hfound
    rw [hfound, Except.mapError]
  · rename_i e he
    rw [he, Except.mapError]

/-- Without an opener there is no element. -/
theorem read_of_not_opener (h : (line.next? pos).bind Enclosure.ofOpener? = none) :
    Element.read line pos = .error ⟨.expectedElement, line.blankEnd pos⟩ := by
  have hliteral : line.readLiteral pos = .error ⟨.notEnclosed, line.blankEnd pos⟩ :=
    Line.readBracketed_of_not_opener h
  have hreference : line.readReference pos = .error ⟨.notEnclosed, line.blankEnd pos⟩ :=
    Line.readBracketed_of_not_opener h
  rw [read_eq_mapError, firstOrFurthest_eq_first (congrArg (Except.map _) hreference), hliteral]
  · rfl
  · intro e he
    rw [← Except.error.inj (hliteral.symm.trans (eq_error_of_map he))]

/-- **An element is read by one attempt.** The character behind the opener says by which one: a
literal goes on with a quote. Without an opener both attempts break off alike. -/
theorem read_eq_ofAttempt (line : Line) (pos : Nat) :
    Element.read line pos =
      if line.next? (line.blankEnd pos + 1) = some '"' then
        ofAttempt .literal (line.readLiteral pos)
      else ofAttempt .reference (line.readReference pos) := by
  cases hopener : (line.next? pos).bind Enclosure.ofOpener? with
  | none =>
    rw [read_of_not_opener hopener, Line.readLiteral, Line.readReference,
      Line.readBracketed_of_not_opener hopener, Line.readBracketed_of_not_opener hopener]
    split <;> rfl
  | some enclosure =>
    obtain ⟨c, hc, henclosure⟩ := Option.bind_eq_some_iff.1 hopener
    rw [Enclosure.ofOpener?_eq_some_iff.1 henclosure] at hc
    rw [read_eq_mapError]
    split
    · rename_i hquote
      have hreference : line.readReference pos = .error _ :=
        Line.readBracketed_of_inner hc (Line.readName_of_next? fun d hd => by
          rw [hquote] at hd
          rw [← Option.mem_some.1 hd]
          decide)
      rw [firstOrFurthest_eq_first (congrArg (Except.map _) hreference), ofAttempt]
      exact fun e he => Line.le_pos_of_readLiteral hc (eq_error_of_map he)
    · rename_i hquote
      have hliteral : line.readLiteral pos = .error _ :=
        Line.readBracketed_of_inner hc (Line.readString_of_next? hquote)
      have hreport : ∀ e e' : Failure Fault, e.pos = e'.pos →
          (⟨.expectedElement, e.pos⟩ : Failure Fault) = ⟨.expectedElement, e'.pos⟩ :=
        fun e e' hpos => by rw [hpos]
      rw [mapError_firstOrFurthest_eq_second hreport (congrArg (Except.map _) hliteral), ofAttempt]
      exact fun e he => Line.le_pos_of_readReference hc (eq_error_of_map he)

theorem exists_of_ofAttempt_eq_error {label : String → Label}
    {attempt : Parsed (String × Enclosure)} {e : Failure Fault}
    (h : ofAttempt label attempt = .error e) :
    ∃ e', attempt = .error e' ∧ e.pos = e'.pos := by
  obtain e' | found := attempt
  · obtain rfl := Except.error.inj h
    exact ⟨e', rfl, rfl⟩
  · cases h

/-- Behind an opener, reading an element breaks off further to the right. -/
theorem lt_pos_of_read {enclosure : Enclosure} {e : Failure Fault}
    (hopener : line.next? pos = some enclosure.opener) (h : Element.read line pos = .error e) :
    line.blankEnd pos < e.pos := by
  refine lt_of_lt_of_le (Nat.lt_of_succ_le (line.le_blankEnd (line.blankEnd pos + 1))) ?_
  rw [read_eq_ofAttempt] at h
  split at h
  · obtain ⟨e', hliteral, hpos⟩ := exists_of_ofAttempt_eq_error h
    exact hpos ▸ Line.le_pos_of_readLiteral hopener hliteral
  · obtain ⟨e', hreference, hpos⟩ := exists_of_ofAttempt_eq_error h
    exact hpos ▸ Line.le_pos_of_readReference hopener hreference

/-- Reading an element breaks off behind the blanks, at the earliest. -/
theorem le_pos_of_read {e : Failure Fault} (h : Element.read line pos = .error e) :
    pos ≤ e.pos := by
  refine (line.le_blankEnd pos).trans ?_
  cases hopener : (line.next? pos).bind Enclosure.ofOpener? with
  | none =>
    rw [read_of_not_opener hopener] at h
    rw [← Except.error.inj h]
  | some enclosure =>
    obtain ⟨c, hc, henclosure⟩ := Option.bind_eq_some_iff.1 hopener
    rw [Enclosure.ofOpener?_eq_some_iff.1 henclosure] at hc
    exact Nat.le_of_lt (lt_pos_of_read hc h)

/-- An element that is read takes up room behind the blanks. -/
theorem blankEnd_lt_of_read {element : Element} {stop : Nat}
    (h : Element.read line pos = .ok (element, stop)) : line.blankEnd pos < stop := by
  obtain ⟨hlabel, start, after, hopener, hlabelStands, hcloser⟩ := read_eq_ok_iff.1 h
  rw [← Line.stands_blankEnd_iff] at hopener
  exact lt_of_read (read_eq_ok_iff.2 ⟨hlabel, start, after, hopener, hlabelStands, hcloser⟩)

end Element

/-! ## Chains and declarations -/

/-- Behind an element, a chain breaks off further to the right. The induction is on the links. -/
theorem Chain.le_pos_of_readLinks {line : Line} {pos : Nat} {e : Failure Fault}
    (h : Chain.readLinks line pos = .error e) : pos ≤ e.pos := by
  fun_induction Chain.readLinks line pos with
  | case1 => cases h
  | case2 pos next hnext =>
    rw [← Except.error.inj h]
    exact line.le_blankEnd pos
  | case3 pos next hnext arrow harrow start hstart =>
    rw [← Except.error.inj h]
    have hnext := line.le_blankEnd pos
    have hstart := line.le_blankEnd (line.blankEnd pos + 2)
    show pos ≤ line.blankEnd (line.blankEnd pos + 2)
    omega
  | case4 pos next hnext arrow harrow =>
    rename_i hread
    rw [Except.error.inj h] at hread
    have hnext := line.le_blankEnd pos
    have helement : line.blankEnd pos + 2 ≤ e.pos := Element.le_pos_of_read hread
    omega
  | case5 pos next hnext arrow harrow =>
    rename_i element stop hread e' hlinks ih
    cases h
    have hnext := line.le_blankEnd pos
    have helement : line.blankEnd pos + 2 < stop := Element.lt_of_read hread
    have hrest := ih hlinks
    omega
  | case6 => cases h

/-- A line that begins with an opener is a chain as far as that opener goes. -/
theorem Chain.lt_pos_of_read {line : Line} {enclosure : Enclosure} {e : Failure Fault}
    (hopener : line.next? 0 = some enclosure.opener) (h : Chain.read line = .error e) :
    line.blankEnd 0 < e.pos := by
  simp only [Chain.read] at h
  split at h
  · rename_i e' hread
    rw [← Except.error.inj h]
    exact Element.lt_pos_of_read hopener hread
  · rename_i first stop hread
    split at h
    · rename_i e' hlinks
      rw [← Except.error.inj h]
      exact lt_of_lt_of_le (Element.blankEnd_lt_of_read hread) (Chain.le_pos_of_readLinks hlinks)
    · cases h

/-- A declaration breaks off behind the blanks, at the earliest. -/
theorem Declaration.le_pos_of_read {line : Line} {e : Failure Fault}
    (h : Declaration.read line = .error e) : line.blankEnd 0 ≤ e.pos := by
  have hname := line.le_readLetters (line.blankEnd 0)
  have hassign := line.le_blankEnd (line.readLetters (line.blankEnd 0)).2
  have hvalue := line.le_blankEnd (line.blankEnd (line.readLetters (line.blankEnd 0)).2 + 2)
  simp only [Declaration.read] at h
  split at h
  · rw [← Except.error.inj h]
  · split at h
    · rw [← Except.error.inj h]
    · split at h
      · rw [← Except.error.inj h]
        exact hname.trans hassign
      · split at h
        · rename_i e' hstring
          rw [← Except.error.inj h, Line.eq_of_readString_eq_error hstring, Line.blankEnd_blankEnd]
          show _ ≤ line.blankEnd _
          omega
        · rename_i value valueEnd hstring
          have hstop := Line.lt_of_readString hstring
          have hrest := line.le_blankEnd valueEnd
          split at h
          · rw [← Except.error.inj h]
            show _ ≤ line.blankEnd _
            omega
          · split at h
            · rw [← Except.error.inj h]
              show _ ≤ line.blankEnd _
              omega
            · cases h

/-- An opener is no letter, so no declaration begins with one. -/
theorem Declaration.read_of_opener {line : Line} {enclosure : Enclosure}
    (h : line.next? 0 = some enclosure.opener) :
    Declaration.read line = .error ⟨.invalidVariableName, line.blankEnd 0⟩ := by
  have hmore : ¬line.length ≤ line.blankEnd 0 := Nat.not_le.2 (Line.blankEnd_lt_of_next? h)
  have hletters : line.readLetters (line.blankEnd 0) = ("", line.blankEnd 0) := by
    refine Line.readLetters_of_next? fun c hc => ?_
    rw [Line.next?_blankEnd, h] at hc
    rw [← Option.mem_some.1 hc]
    exact Line.not_isAlpha_opener enclosure
  simp only [Declaration.read, if_neg hmore, hletters]
  rfl

/-! ## Statements -/

section Statements

variable {line : Line}

/-- **A line that begins with an opener is read as a chain.** -/
theorem Statement.read_of_opener {enclosure : Enclosure}
    (h : line.next? 0 = some enclosure.opener) :
    Statement.read line = (Chain.read line).map .chain := by
  rw [Statement.read, Declaration.read_of_opener h]
  refine firstOrFurthest_eq_second rfl fun e he => ?_
  exact Chain.lt_pos_of_read h (eq_error_of_map he)

/-- **Any other line is read as a declaration**, and so is one of blanks only. -/
theorem Statement.read_of_not_opener (h : (line.next? 0).bind Enclosure.ofOpener? = none) :
    Statement.read line = (Declaration.read line).map .declaration := by
  have hchain : Chain.read line = .error ⟨.expectedElement, line.blankEnd 0⟩ := by
    simp only [Chain.read, Element.read_of_not_opener h]
  rw [Statement.read]
  refine firstOrFurthest_eq_first (congrArg (Except.map _) hchain) fun e he => ?_
  exact Declaration.le_pos_of_read (eq_error_of_map he)

/-- Four characters are openers. -/
theorem Enclosure.isSome_ofOpener?_iff {c : Char} :
    (Enclosure.ofOpener? c).isSome ↔ c ∈ ['[', '(', '/', '<'] := by
  constructor
  · intro h
    obtain ⟨enclosure, henclosure⟩ := Option.isSome_iff_exists.1 h
    rw [Enclosure.ofOpener?_eq_some_iff.1 henclosure]
    cases enclosure <;> decide
  · simp only [List.mem_cons, List.not_mem_nil, or_false]
    rintro (rfl | rfl | rfl | rfl) <;> rfl

/-- **Arbitration between failures is prediction.** What a line is read as, or how its reading
fails, is what its first character other than a blank calls for: behind one of the four openers that
is a chain, and else a declaration. What an element is read as, or where its reading fails, is what
the character behind its opener calls for: a literal behind a quote, and else a reference. This
holds at every position, so at all positions where a chain looks for an element. -/
theorem arbitration_is_prediction (line : Line) :
    (Statement.read line =
      if (line.next? 0).any (· ∈ ['[', '(', '/', '<']) then (Chain.read line).map .chain
      else (Declaration.read line).map .declaration) ∧
    ∀ pos, Element.read line pos =
      if line.next? (line.blankEnd pos + 1) = some '"' then
        Element.ofAttempt .literal (line.readLiteral pos)
      else Element.ofAttempt .reference (line.readReference pos) := by
  refine ⟨?_, fun pos => Element.read_eq_ofAttempt line pos⟩
  by_cases hany : (line.next? 0).any (· ∈ ['[', '(', '/', '<'])
  · obtain ⟨c, hc, hmem⟩ := (Option.any_eq_true _ _).1 hany
    obtain ⟨enclosure, henclosure⟩ := Option.isSome_iff_exists.1
      (Enclosure.isSome_ofOpener?_iff.2 (of_decide_eq_true hmem))
    rw [Enclosure.ofOpener?_eq_some_iff.1 henclosure] at hc
    rw [if_pos hany, Statement.read_of_opener hc]
  · rw [if_neg hany]
    refine Statement.read_of_not_opener (Option.bind_eq_none_iff.2 fun c hc => ?_)
    by_contra hsome
    have hmem := Enclosure.isSome_ofOpener?_iff.1 (Option.isSome_iff_ne_none.2 hsome)
    exact hany ((Option.any_eq_true _ _).2 ⟨c, hc, decide_eq_true hmem⟩)

end Statements

/-- Two lines with the same ending. The first one begins with no opener, so the reading fails at the
arrow for want of a name; the second one is a chain up to its missing name. -/
example :
    Statement.read "-> [ ]".toList = .error ⟨.invalidVariableName, 0⟩ ∧
      Statement.read "[a] -> [ ]".toList = .error ⟨.expectedElement, 9⟩ := by
  constructor <;> cbv

end ChainDiagram
