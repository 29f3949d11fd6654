import ChainDiagram.Proofs.Lines
import ChainDiagram.Proofs.Refusal

/-!
# Comments behind a line

A comment behind a line changes what is read in one respect: the whitespace in front of the `#` is
no longer at the end of the line, so it is not trimmed away. The readers of statements pass over
blanks there, and nothing else. So a comment is without effect behind blanks, while a statement that
is followed by other whitespace is refused as soon as a comment follows that.

## What is here

* `SourceLine.ofRaw?_append_comment`: what a line says with a comment behind it.
* `Statement.read_append_spaces_iff`: a statement may be followed by blanks, and by no other
  whitespace.
* `Statement.withoutComment_of_read`: a statement has no comment in it, whatever its strings hold.
* `SameOutcome`: two ways to compile end alike.
* `LaysOpen`: where a comment has an effect (`LaysOpen.compile_eq_error`).
* `comment_without_effect_iff`: when a comment is without effect.
-/

set_option autoImplicit false

namespace ChainDiagram

/-! ## Where a comment begins -/

namespace Line

/-- Behind an even number of quotes, a `#` begins a comment, so only what stands in front of it is
left. -/
theorem uncommented_append_comment {quoted : Bool} {line : Line} (comment : Line)
    (h : Even (line.count '"') ↔ quoted = false) :
    uncommented quoted (line ++ '#' :: comment) = uncommented quoted line := by
  induction line generalizing quoted with
  | nil =>
    obtain rfl := h.1 (by simp)
    rfl
  | cons c line ih =>
    rw [List.cons_append, uncommented, uncommented]
    split
    · rfl
    · refine congrArg (c :: ·) (ih ?_)
      by_cases hc : c = '"'
      · rw [hc, List.count_cons_self, Nat.even_add_one] at h
        rw [if_pos hc]
        cases quoted <;> simpa using h
      · rw [List.count_cons_of_ne hc] at h
        rwa [if_neg hc]

/-- What holds no `#` belongs to a comment in front of it, or is left as it is. -/
theorem uncommented_append_of_not_mem {quoted : Bool} {rest : Line} (hrest : '#' ∉ rest)
    (line : Line) :
    uncommented quoted (line ++ rest) =
      if uncommented quoted line = line then line ++ rest else uncommented quoted line := by
  induction line generalizing quoted with
  | nil =>
    rw [List.nil_append, uncommented, if_pos rfl]
    induction rest generalizing quoted with
    | nil => rfl
    | cons c rest ih =>
      have hc : c ≠ '#' := fun heq => hrest (heq ▸ List.mem_cons_self)
      rw [uncommented, if_neg fun h => hc h.1, ih fun hmem => hrest (List.mem_cons_of_mem c hmem)]
  | cons c line ih =>
    rw [List.cons_append, uncommented, uncommented]
    split
    · rw [if_neg (List.cons_ne_nil c line).symm]
    · rw [ih]
      generalize uncommented _ line = left
      by_cases h : left = line <;> simp [h]

/-- Text without quotes and without a `#` in front of a line is no part of its comment. -/
theorem uncommented_append_left {quoted : Bool} {front : Line} (hcomment : '#' ∉ front)
    (hquote : '"' ∉ front) (line : Line) :
    uncommented quoted (front ++ line) = front ++ uncommented quoted line := by
  induction front with
  | nil => rfl
  | cons c front ih =>
    have hc : c ≠ '#' := fun heq => hcomment (heq ▸ List.mem_cons_self)
    have hc' : c ≠ '"' := fun heq => hquote (heq ▸ List.mem_cons_self)
    rw [List.cons_append, uncommented, if_neg fun h => hc h.1, if_neg hc',
      ih (fun hmem => hcomment (List.mem_cons_of_mem c hmem))
        (fun hmem => hquote (List.mem_cons_of_mem c hmem)), List.cons_append]

/-- Quoted text in front of a line is no part of its comment, whatever it holds. -/
theorem uncommented_quote_append {text : Line} (h : '"' ∉ text) (rest : Line) :
    uncommented true (text ++ '"' :: rest) = text ++ '"' :: uncommented false rest := by
  induction text with
  | nil => rfl
  | cons c text ih =>
    have hc : c ≠ '"' := fun heq => h (heq ▸ List.mem_cons_self)
    rw [List.cons_append, uncommented, if_neg (by simp), if_neg hc,
      ih fun hmem => h (List.mem_cons_of_mem c hmem), List.cons_append]

end Line

theorem Spaces.not_mem {text : List Char} (h : Spaces text) {c : Char} (hc : ¬isWhitespace c) :
    c ∉ text := fun hmem => hc (h c hmem)

/-- Whitespace behind a text belongs to the comment in it, if there is one. -/
theorem Line.withoutComment_append_spaces (text : Line) {back : Line} (hback : Spaces back) :
    withoutComment (text ++ back) =
      if withoutComment text = text then text ++ back else withoutComment text :=
  uncommented_append_of_not_mem (hback.not_mem (by decide)) text

/-- Whitespace around a text does not make it a comment. -/
theorem Line.withoutComment_eq_self_iff {front text back : Line} (hfront : Spaces front)
    (hback : Spaces back) :
    withoutComment (front ++ (text ++ back)) = front ++ (text ++ back) ↔
      withoutComment text = text := by
  rw [withoutComment, uncommented_append_left (hfront.not_mem (by decide))
    (hfront.not_mem (by decide)), ← withoutComment, withoutComment_append_spaces text hback,
    List.append_cancel_left_eq]
  split
  · rename_i h
    exact iff_of_true rfl h
  · rename_i h
    refine iff_of_false (fun heq => h ?_) h
    obtain ⟨comment, hcomment⟩ := exists_uncommented_append false text
    have hself : text ++ (back ++ comment) = text ++ [] := by
      rw [← List.append_assoc, ← heq, withoutComment, hcomment, List.append_nil]
    have hnil := List.append_eq_nil_iff.1 (List.append_cancel_left hself)
    rw [heq, hnil.1, List.append_nil]

/-- **A comment behind a line is taken away again**, but the whitespace in front of it is not,
unless that belongs to a comment itself. -/
theorem SourceLine.ofRaw?_append_comment (number : Nat) {raw : Line} (comment : Line)
    (hquotes : Even (raw.count '"')) :
    SourceLine.ofRaw? number (raw ++ '#' :: comment) =
      (SourceLine.ofRaw? number raw).map fun line =>
        if Line.withoutComment raw = raw then
          { line with text := line.text ++ raw.rtakeWhile isWhitespace }
        else line := by
  obtain ⟨front, back, hfront, hback, hraw⟩ := exists_eq_append_trim raw
  obtain ⟨rest, end_, hend, hcomment, hrest⟩ := exists_comment_eq comment
  have htext := trimmed_trim raw
  generalize trim raw = text at hraw htext
  subst hraw
  by_cases hne : text = []
  · -- A line of whitespace only becomes a line with only a comment.
    subst hne
    have hspaces : Spaces (front ++ ([] ++ back)) := hfront.append hback
    rw [hcomment, SourceLine.ofRaw?_append number hspaces hend hrest,
      SourceLine.ofRaw?_append number hfront hback htext, if_pos (.inr rfl), if_pos (.inl rfl),
      Option.map_none]
  · have hlonger : Trimmed (text ++ (back ++ '#' :: rest)) :=
      htext.append hne hrest (List.cons_ne_nil _ _) back
    have hraw : front ++ (text ++ back) ++ '#' :: comment =
        front ++ ((text ++ (back ++ '#' :: rest)) ++ end_) := by
      rw [hcomment]
      simp only [List.append_assoc, List.cons_append]
    have hquotes' : Even ((text ++ back).count '"') := by
      rwa [List.count_append, List.count_eq_zero_of_not_mem (hfront.not_mem (by decide)),
        Nat.zero_add] at hquotes
    have huncommented : Line.withoutComment (text ++ (back ++ '#' :: rest)) =
        Line.withoutComment (text ++ back) := by
      rw [← List.append_assoc]
      exact Line.uncommented_append_comment rest (by simpa using hquotes')
    simp only [hraw, SourceLine.ofRaw?_append number hfront hend hlonger,
      SourceLine.ofRaw?_append number hfront hback htext, huncommented,
      Line.withoutComment_append_spaces text hback, Line.withoutComment_eq_self_iff hfront hback,
      rtakeWhile_append hback htext hne]
    rw [List.head?_append_of_ne_nil _ hne, List.isEmpty_eq_false_iff.2 hne,
      List.isEmpty_eq_false_iff.2 (List.append_ne_nil_of_left_ne_nil hne _)]
    by_cases hsilent : false = true ∨ text.head? = some '#'
    · rw [if_pos hsilent, if_pos hsilent, Option.map_none]
    · rw [if_neg hsilent, if_neg hsilent, Option.map_some]
      by_cases hplain : Line.withoutComment text = text
      · simp only [hplain, if_true]
      · simp only [if_neg hplain]

/-! ## Whitespace behind a statement -/

/-- The last character of a token is no whitespace. -/
def EndsSolid (token : Line) : Prop := ∃ front c, token = front ++ [c] ∧ ¬isWhitespace c

/-- **Behind the last token of a line, there may be blanks and no other whitespace.** -/
theorem spelled_append_spaces_iff {tokens : List Line} (htokens : ∀ token ∈ tokens, EndsSolid token)
    {line spaces : Line} (hspaces : Spaces spaces) :
    Spelled tokens (line ++ spaces) ↔ Spelled tokens line ∧ Blanks spaces := by
  constructor
  · intro h
    induction tokens generalizing line with
    | nil =>
      obtain ⟨hline, hblanks⟩ := List.forall_mem_append.1 (spelled_nil_iff.1 h)
      exact ⟨.done hline, hblanks⟩
    | cons token tokens ih =>
      obtain ⟨⟨front, c, rfl, hc⟩, htail⟩ := List.forall_mem_cons.1 htokens
      generalize htext : line ++ spaces = text at h
      cases h with
      | @token gap _ rest _ hgap hrest =>
        -- the whitespace cannot reach back into the token
        have hsplit : ∃ middle, line = gap ++ ((front ++ [c]) ++ middle) ∧
            rest = middle ++ spaces := by
          rw [← List.append_assoc] at htext
          rcases List.append_eq_append_iff.1 htext with ⟨a, ha, hspaces_eq⟩ | ⟨b, hb, hrest_eq⟩
          · rcases List.eq_nil_or_concat a with rfl | ⟨a, d, rfl⟩
            · exact ⟨[], by simpa using ha.symm, by simpa using hspaces_eq.symm⟩
            · rw [List.concat_eq_append, ← List.append_assoc, ← List.append_assoc] at ha
              obtain rfl : c = d := List.singleton_inj.1 (List.append_inj' ha rfl).2
              exact absurd (hspaces c (by rw [hspaces_eq]; simp)) hc
          · exact ⟨b, by rw [hb, List.append_assoc], hrest_eq⟩
        obtain ⟨middle, rfl, rfl⟩ := hsplit
        obtain ⟨hmiddle, hblanks⟩ := ih htail hrest
        exact ⟨.token hgap hmiddle, hblanks⟩
  · rintro ⟨h, hblanks⟩
    induction h with
    | done hgap => exact .done (List.forall_mem_append.2 ⟨hgap, hblanks⟩)
    | token hgap _ ih =>
      rw [List.append_assoc, List.append_assoc]
      exact .token hgap (ih (List.forall_mem_cons.1 htokens).2)

theorem not_isWhitespace_of_isAlpha {c : Char} (h : c.isAlpha) : ¬isWhitespace c := by
  simp only [Char.isAlpha, Char.isUpper, Char.isLower, Bool.or_eq_true, Bool.and_eq_true,
    decide_eq_true_eq, ge_iff_le, UInt32.le_iff_toNat_le] at h
  have hA : 'A'.val.toNat = 65 := rfl
  have hZ : 'Z'.val.toNat = 90 := rfl
  have ha : 'a'.val.toNat = 97 := rfl
  have hz : 'z'.val.toNat = 122 := rfl
  have hc : c.toNat = c.val.toNat := rfl
  simp only [isWhitespace, whitespaceRanges, List.any_cons, List.any_nil, Bool.or_false,
    Bool.or_eq_true, Bool.and_eq_true, decide_eq_true_eq]
  omega

theorem Enclosure.not_isWhitespace_opener (e : Enclosure) : ¬isWhitespace e.opener := by
  cases e <;> decide

theorem Enclosure.not_isWhitespace_closer (e : Enclosure) : ¬isWhitespace e.closer := by
  cases e <;> decide

theorem Line.IsName.endsSolid {name : String} (h : Line.IsName name) : EndsSolid name.toList := by
  have hne : name.toList ≠ [] := fun hnil => h.1 (String.toList_eq_nil_iff.1 hnil)
  exact ⟨name.toList.dropLast, name.toList.getLast hne, (List.dropLast_append_getLast hne).symm,
    not_isWhitespace_of_isAlpha (h.2 _ (List.getLast_mem hne))⟩

theorem IsToken.endsSolid {token : Line} (h : IsToken token) : EndsSolid token := by
  cases h with
  | opener enclosure => exact ⟨[], _, rfl, enclosure.not_isWhitespace_opener⟩
  | closer enclosure => exact ⟨[], _, rfl, enclosure.not_isWhitespace_closer⟩
  | @quoted text htext => exact ⟨'"' :: text.toList, '"', rfl, by decide⟩
  | name hname => exact hname.endsSolid
  | arrow arrow =>
    cases arrow with
    | forward => exact ⟨['-'], '>', rfl, by decide⟩
    | backward => exact ⟨['<'], '-', rfl, by decide⟩
  | assign => exact ⟨[':'], '=', rfl, by decide⟩

/-- **A statement may be followed by blanks, and by no other whitespace.** -/
theorem Statement.read_append_spaces_iff {line spaces : Line} (h : Spaces spaces)
    {statement : Statement} :
    Statement.read (line ++ spaces) = .ok statement ↔
      Statement.read line = .ok statement ∧ Blanks spaces := by
  rw [Statement.read_eq_ok_iff, Statement.read_eq_ok_iff, and_assoc]
  refine and_congr_right fun hstatement => spelled_append_spaces_iff (fun token htoken => ?_) h
  exact (hstatement.isToken token htoken).endsSolid

/-! ## Statements and comments -/

/-- No comment begins in a token. -/
theorem IsToken.uncommented_append {token : Line} (h : IsToken token) (rest : Line) :
    Line.uncommented false (token ++ rest) = token ++ Line.uncommented false rest := by
  cases h with
  | opener enclosure =>
    exact Line.uncommented_append_left (by cases enclosure <;> decide)
      (by cases enclosure <;> decide) rest
  | closer enclosure =>
    exact Line.uncommented_append_left (by cases enclosure <;> decide)
      (by cases enclosure <;> decide) rest
  | @quoted text htext =>
    have hbody := Line.uncommented_quote_append htext rest
    rw [Line.quoted, List.cons_append, List.append_assoc, List.singleton_append, Line.uncommented,
      if_neg (by decide), if_pos rfl, Bool.not_false, hbody, List.cons_append, List.append_assoc,
      List.singleton_append]
  | name hname =>
    have hletter : ∀ c : Char, ¬c.isAlpha → ∀ name, Line.IsName name → c ∉ name.toList :=
      fun c hc name hname hmem => hc (hname.2 c hmem)
    exact Line.uncommented_append_left (hletter _ (by decide) _ hname)
      (hletter _ (by decide) _ hname) rest
  | arrow arrow =>
    exact Line.uncommented_append_left (by cases arrow <;> decide) (by cases arrow <;> decide) rest
  | assign => rfl

/-- No comment begins in blanks. -/
theorem Blanks.uncommented_append {gap : Line} (h : Blanks gap) (rest : Line) :
    Line.uncommented false (gap ++ rest) = gap ++ Line.uncommented false rest :=
  Line.uncommented_append_left (fun hmem => absurd (h _ hmem) (by decide))
    (fun hmem => absurd (h _ hmem) (by decide)) rest

/-- No comment begins in what is made of tokens, so it begins behind them or not at all. -/
theorem Spelled.uncommented_append {tokens : List Line} {line : Line} (h : Spelled tokens line)
    (htokens : ∀ token ∈ tokens, IsToken token) (rest : Line) :
    Line.uncommented false (line ++ rest) = line ++ Line.uncommented false rest := by
  induction h with
  | done hgap => exact hgap.uncommented_append rest
  | token hgap _ ih =>
    obtain ⟨htoken, htokens⟩ := List.forall_mem_cons.1 htokens
    rw [List.append_assoc, List.append_assoc, hgap.uncommented_append, htoken.uncommented_append,
      ih htokens, List.append_assoc, List.append_assoc]

/-- What is made of tokens has no comment. -/
theorem Spelled.withoutComment_eq {tokens : List Line} {line : Line} (h : Spelled tokens line)
    (htokens : ∀ token ∈ tokens, IsToken token) : Line.withoutComment line = line := by
  simpa [Line.withoutComment, Line.uncommented] using h.uncommented_append htokens []

theorem Statement.withoutComment_of_read {line : Line} {statement : Statement}
    (h : Statement.read line = .ok statement) : Line.withoutComment line = line := by
  obtain ⟨hstatement, hspelled⟩ := Statement.read_eq_ok_iff.1 h
  exact hspelled.withoutComment_eq hstatement.isToken

/-! ## Ending alike -/

/-- Two computations end alike: both answer the same, or both fail with an error of the same kind in
the same line. -/
inductive SameOutcome {α : Type} : Except Diagnostic α → Except Diagnostic α → Prop
  | ok (a : α) : SameOutcome (.ok a) (.ok a)
  | error {e e' : Diagnostic} (hcode : e.code = e'.code) (hline : e.line = e'.line) :
    SameOutcome (.error e) (.error e')

theorem SameOutcome.refl {α : Type} (x : Except Diagnostic α) : SameOutcome x x := by
  cases x with
  | ok a => exact .ok a
  | error e => exact .error rfl rfl

/-- What ends alike is continued alike. -/
theorem SameOutcome.bind {α β : Type} {x y : Except Diagnostic α} (h : SameOutcome x y)
    (f : α → Except Diagnostic β) : SameOutcome (x >>= f) (y >>= f) := by
  cases h with
  | ok a => exact .refl (f a)
  | error hcode hline => exact .error hcode hline

/-- Two texts that are read as the same statement, or are both no statement, end alike in one
place. -/
theorem Draft.readLine_sameOutcome (d : Draft) {line : SourceLine} {text : Line}
    (h : ∀ statement, Statement.read text = .ok statement ↔
      Statement.read line.text = .ok statement) :
    SameOutcome (d.readLine line) (d.readLine { line with text }) := by
  cases hread : Statement.read line.text with
  | ok statement =>
    have htext := (h statement).2 hread
    simp only [Draft.readLine, hread, htext]
    exact .refl _
  | error failure =>
    cases htext : Statement.read text with
    | ok statement => exact absurd (hread.symm.trans ((h statement).1 htext)) (by simp)
    | error failure' =>
      simp only [Draft.readLine, hread, htext]
      exact .error rfl rfl

/-- Reads the lines from a draft on, and draws the graph. -/
def Draft.finish (d : Draft) (lines : List SourceLine) : Except Diagnostic Graph :=
  lines.foldlM Draft.readLine d >>= Draft.graph

theorem compile_eq_finish (source : String) :
    compile source = Draft.empty.finish (sourceLines source) := rfl

theorem Draft.finish_append (d : Draft) (lines rest : List SourceLine) :
    d.finish (lines ++ rest) = lines.foldlM Draft.readLine d >>= fun d => d.finish rest := by
  rw [finish, List.foldlM_append]
  cases lines.foldlM Draft.readLine d <;> rfl

theorem Draft.finish_cons (d : Draft) (line : SourceLine) (rest : List SourceLine) :
    d.finish (line :: rest) = d.readLine line >>= fun d => d.finish rest := by
  rw [finish, List.foldlM_cons]
  cases d.readLine line <;> rfl

/-! ## Comments without effect -/

/-- A comment behind the line lays whitespace open that the statement in the line cannot end with.
The lines before must let the reading come that far. -/
structure LaysOpen (before : List Line) (raw : Line) : Prop where
  /-- No line before is refused. -/
  reached : NoneBad SourceLine.Bad (significantLines 1 before)
  /-- The line has no comment of its own. -/
  plain : Line.withoutComment raw = raw
  /-- It is a statement. -/
  statement : ∃ line statement, SourceLine.ofRaw? (1 + before.length) raw = some line ∧
    Statement.read line.text = .ok statement
  /-- It ends with whitespace, not all of which is blanks. -/
  spaces : ¬Blanks (raw.rtakeWhile isWhitespace)

section Comment

variable {source source' : String} {before after : List Line} {raw comment : Line}

/-- What is read of a text is what is read before a line, in it, and behind it. -/
theorem sourceLines_eq_append (h : linesOf source = before ++ raw :: after) :
    sourceLines source = significantLines 1 before ++
      ((SourceLine.ofRaw? (1 + before.length) raw).toList ++
        significantLines (1 + before.length + 1) after) := by
  rw [sourceLines_eq, h, significantLines_append]
  rfl

/-- Where a comment lays no other whitespace open than blanks, the text says the same. -/
theorem sameOutcome_of_not_laysOpen (hsource : linesOf source = before ++ raw :: after)
    (hsource' : linesOf source' = before ++ (raw ++ '#' :: comment) :: after)
    (hquotes : Even (raw.count '"')) (h : ¬LaysOpen before raw) :
    SameOutcome (compile source) (compile source') := by
  have hcomment := SourceLine.ofRaw?_append_comment (1 + before.length) comment hquotes
  rw [compile_eq_finish, compile_eq_finish, sourceLines_eq_append hsource,
    sourceLines_eq_append hsource', hcomment, Draft.finish_append, Draft.finish_append]
  cases hline : SourceLine.ofRaw? (1 + before.length) raw with
  | none => exact .refl _
  | some line =>
    rw [Option.map_some]
    by_cases hplain : Line.withoutComment raw = raw
    · rw [if_pos hplain]
      rcases noneBad_or_firstBad SourceLine.Bad (significantLines 1 before) with
        hreached | ⟨lines, bad, hfirst⟩
      · -- Everything before is fine, so the whitespace must be blanks, or there is no statement.
        obtain ⟨d, hd, -⟩ := foldlM_readLine_eq_ok hreached
        have hread : ∀ statement,
            Statement.read (line.text ++ raw.rtakeWhile isWhitespace) = .ok statement ↔
              Statement.read line.text = .ok statement := by
          intro statement
          rw [Statement.read_append_spaces_iff fun _ hc => List.mem_rtakeWhile_imp hc]
          refine and_iff_left_of_imp fun hstatement => ?_
          by_contra hspaces
          exact h ⟨hreached, hplain, ⟨line, statement, hline, hstatement⟩, hspaces⟩
        rw [hd]
        show SameOutcome (d.finish (line :: _)) (d.finish (_ :: _))
        rw [Draft.finish_cons, Draft.finish_cons]
        exact (d.readLine_sameOutcome hread).bind _
      · obtain ⟨e, he⟩ := hfirst.bad
        rw [foldlM_readLine_eq_error hfirst he]
        exact .refl _
    · rw [if_neg hplain]
      exact .refl _

/-- The number of a line that is read tells where it stands in the text. -/
theorem exists_raw_of_mem_sourceLines {line : SourceLine} (h : line ∈ sourceLines source) :
    ∃ index raw, (linesOf source)[index]? = some raw ∧
      SourceLine.ofRaw? (1 + index) raw = some line ∧ line.number = 1 + index := by
  rw [sourceLines_eq, significantLines_eq_filterMap] at h
  obtain ⟨⟨raw, number⟩, hmem, hline⟩ := List.mem_filterMap.1 h
  replace hline : SourceLine.ofRaw? number raw = some line := hline
  obtain ⟨index, rfl⟩ := Nat.exists_eq_add_of_le (List.mem_zipIdx hmem).1
  refine ⟨index, raw, List.mk_add_mem_zipIdx_iff_getElem?.1 hmem, hline, ?_⟩
  rw [SourceLine.ofRaw?_eq_map] at hline
  obtain ⟨-, -, rfl⟩ := Option.map_eq_some_iff.1 hline
  rfl

/-- A syntax error is where reading a line has failed. -/
theorem exists_failure_of_compile {number column : Nat} {message : String}
    (h : compile source = .error (.syntaxError number column message)) :
    ∃ line ∈ sourceLines source, ∃ e, Statement.read line.text = .error e ∧ line.number = number ∧
      line.column e.pos = column ∧ e.fault.message = message := by
  cases faulty_of_compile h with
  | @line before line _ hfirst hrefused =>
    obtain ⟨after, hlines⟩ := hfirst.exists_eq_append
    cases hrefused with
    | syntaxError hread =>
      have hmem : line ∈ sourceLines source :=
        hlines ▸ List.mem_append_right _ List.mem_cons_self
      exact ⟨line, hmem, _, hread, rfl, rfl, rfl⟩
    | statement _ hrefused => cases hrefused

/-- Where a comment lays other whitespace open, it makes the line into a syntax error. -/
theorem LaysOpen.compile_eq_error (h : LaysOpen before raw)
    (hsource' : linesOf source' = before ++ (raw ++ '#' :: comment) :: after)
    (hquotes : Even (raw.count '"')) :
    ∃ column message, compile source' =
      .error (.syntaxError (1 + before.length) column message) := by
  obtain ⟨line, -, hline, -⟩ := h.statement
  have hnumber : line.number = 1 + before.length := by
    rw [SourceLine.ofRaw?_eq_map] at hline
    obtain ⟨-, -, rfl⟩ := Option.map_eq_some_iff.1 hline
    rfl
  have hspaces : Spaces (raw.rtakeWhile isWhitespace) := fun _ hc => List.mem_rtakeWhile_imp hc
  obtain ⟨failure, hread⟩ : ∃ failure,
      Statement.read (line.text ++ raw.rtakeWhile isWhitespace) = .error failure := by
    cases hread : Statement.read (line.text ++ raw.rtakeWhile isWhitespace) with
    | error failure => exact ⟨failure, rfl⟩
    | ok other => exact absurd ((Statement.read_append_spaces_iff hspaces).1 hread).2 h.spaces
  have hlines' := sourceLines_eq_append hsource'
  rw [SourceLine.ofRaw?_append_comment _ comment hquotes, hline, Option.map_some, if_pos h.plain]
    at hlines'
  have hrefused : SourceLine.Refused (significantLines 1 before)
      { line with text := line.text ++ raw.rtakeWhile isWhitespace } _ := .syntaxError hread
  rw [← hnumber]
  exact ⟨_, _, (Faulty.line ⟨⟨_, hlines'⟩, h.reached, ⟨_, hrefused⟩⟩ hrefused).compile⟩

/-- Without the comment, the line is a statement, so there is no syntax error in it. -/
theorem LaysOpen.compile_ne_error (h : LaysOpen before raw)
    (hsource : linesOf source = before ++ raw :: after) (column : Nat) (message : String) :
    compile source ≠ .error (.syntaxError (1 + before.length) column message) := by
  intro hcompile
  obtain ⟨line, statement, hline, hstatement⟩ := h.statement
  obtain ⟨other, hother, failure, hread, hnumber, -⟩ := exists_failure_of_compile hcompile
  obtain ⟨index, raw', hget, hother, hindex⟩ := exists_raw_of_mem_sourceLines hother
  obtain rfl : index = before.length := by omega
  rw [hsource, List.getElem?_append_right (Nat.le_refl _), Nat.sub_self] at hget
  obtain rfl : raw = raw' := Option.some.inj hget
  obtain rfl : line = other := Option.some.inj (hline.symm.trans hother)
  exact absurd (hstatement.symm.trans hread) (by simp)

theorem not_sameOutcome_of_laysOpen (hsource : linesOf source = before ++ raw :: after)
    (hsource' : linesOf source' = before ++ (raw ++ '#' :: comment) :: after)
    (hquotes : Even (raw.count '"')) (h : LaysOpen before raw) :
    ¬SameOutcome (compile source) (compile source') := by
  obtain ⟨column', message', hcompile'⟩ := h.compile_eq_error hsource' hquotes
  rw [hcompile']
  intro hsame
  generalize hcompile : compile source = outcome at hsame
  cases hsame with
  | @error e _ hcode hline =>
    cases e with
    | syntaxError number column message =>
      obtain rfl : number = 1 + before.length := hline
      exact h.compile_ne_error hsource column message hcompile
    | _ => simp [Diagnostic.code] at hcode

/-- **When a comment is without effect.** Behind a line with an even number of quotes, so that it is
not in a string, a comment changes neither the graph nor the kind and the line of the error, except
where it lays open whitespace that a statement cannot end with. -/
theorem comment_without_effect_iff (hsource : linesOf source = before ++ raw :: after)
    (hsource' : linesOf source' = before ++ (raw ++ '#' :: comment) :: after)
    (hquotes : Even (raw.count '"')) :
    SameOutcome (compile source) (compile source') ↔ ¬LaysOpen before raw :=
  ⟨fun hsame h => not_sameOutcome_of_laysOpen hsource hsource' hquotes h hsame,
    sameOutcome_of_not_laysOpen hsource hsource' hquotes⟩

/-- Behind a blank, a comment is without effect. -/
theorem comment_without_effect_iff_blank :
    SameOutcome (compile "[\"a\"] ") (compile "[\"a\"] # b") := by
  have hsource : linesOf "[\"a\"] " = [] ++ "[\"a\"] ".toList :: [] := by rfl
  have hsource' : linesOf "[\"a\"] # b" =
      [] ++ ("[\"a\"] ".toList ++ '#' :: " b".toList) :: [] := by rfl
  have hspaces : "[\"a\"] ".toList.rtakeWhile isWhitespace = [' '] := by rfl
  refine (comment_without_effect_iff hsource hsource' ⟨1, rfl⟩).2 fun h => h.spaces ?_
  rw [hspaces]
  simp [Blanks, isBlank]

/-- A statement is followed by a no-break space. That is trimmed away, but not in front of a
comment. -/
theorem not_sameOutcome_no_break_space :
    linesOf "[\"a\"]\u00a0" = ["[\"a\"]\u00a0".toList] ∧
      linesOf "[\"a\"]\u00a0# b" = ["[\"a\"]\u00a0".toList ++ '#' :: " b".toList] ∧
      Even ("[\"a\"]\u00a0".toList.count '"') ∧
      ¬SameOutcome (compile "[\"a\"]\u00a0") (compile "[\"a\"]\u00a0# b") := by
  have hsource : linesOf "[\"a\"]\u00a0" = [] ++ "[\"a\"]\u00a0".toList :: [] := by rfl
  have hsource' : linesOf "[\"a\"]\u00a0# b" =
      [] ++ ("[\"a\"]\u00a0".toList ++ '#' :: " b".toList) :: [] := by rfl
  have hquotes : Even ("[\"a\"]\u00a0".toList.count '"') := ⟨1, rfl⟩
  have hread : Statement.read "[\"a\"]".toList =
      .ok (.chain ⟨[⟨.rectangle, .literal "a"⟩], []⟩) := by cbv
  have hspaces : "[\"a\"]\u00a0".toList.rtakeWhile isWhitespace = ['\u00a0'] := by rfl
  refine ⟨hsource, hsource', hquotes, not_sameOutcome_of_laysOpen hsource hsource' hquotes
    ⟨noneBad_nil, rfl, ⟨_, _, rfl, hread⟩, ?_⟩⟩
  rw [hspaces]
  simp [Blanks, isBlank]

end Comment

end ChainDiagram
