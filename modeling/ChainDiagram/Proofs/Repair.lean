import ChainDiagram.Proofs.Comment
import ChainDiagram.Proofs.Reordering

/-!
# Where a line can be repaired

A syntax error says at which column a line is wrong. What stands to the left of that column is
right: there is a text that could stand in the place of the rest, and the line would be a statement.

The reason is that the readers break off only in front of a token. Up to there, a line consists of
some tokens and of blanks behind the last of them, and there is a statement that begins with these
tokens. So each way to break off is followed to the tokens in front of it, which are completed to a
statement that is as short as can be. What is left is to put that statement into the raw line,
behind its indentation.

## What is here

* `Line.Written`: up to a position, a line consists of some tokens. `Begins`: tokens that a
  statement can begin with. Where both hold, a line is `Line.Repairable`.
* `Element.BreaksOff`: where the reading of an element can break off.
* `Chain.repairable_of_readLinks`, `Declaration.repairable_of_read`, `Statement.repairable_of_read`:
  all failures lie where the line can be repaired.
* `Statement.read_trim`, `Line.text?_of_read`: a statement can be put into a line.
* `syntax_errors_can_be_repaired`: the syntax errors of a text.
-/

set_option autoImplicit false

namespace ChainDiagram

/-! ## Lines up to a position -/

theorem spelled_blanks_append {gap line : Line} {tokens : List Line} (hgap : Blanks gap)
    (h : Spelled tokens line) : Spelled tokens (gap ++ line) := by
  cases h with
  | done hgap' => exact .done (List.forall_mem_append.2 ⟨hgap, hgap'⟩)
  | token hgap' hrest =>
    rw [← List.append_assoc]
    exact .token (List.forall_mem_append.2 ⟨hgap, hgap'⟩) hrest

/-- Tokens can be put one behind the other. -/
theorem Spelled.append {tokens more : List Line} {line rest : Line} (h : Spelled tokens line)
    (hrest : Spelled more rest) : Spelled (tokens ++ more) (line ++ rest) := by
  induction h with
  | done hgap => exact spelled_blanks_append hgap hrest
  | token hgap _ ih =>
    rw [List.append_assoc, List.append_assoc]
    exact .token hgap ih

/-- Tokens may touch. -/
theorem spelled_flatten (tokens : List Line) : Spelled tokens tokens.flatten := by
  induction tokens with
  | nil => exact .done blanks_nil
  | cons token tokens ih => exact .token blanks_nil ih

namespace Line

variable {line part : Line} {pos stop : Nat} {tokens : List Line}

theorem take_add_of_isPrefix (h : part <+: line.drop pos) :
    line.take (pos + part.length) = line.take pos ++ part := by
  rw [List.take_add, ← List.prefix_iff_eq_take.1 h]

theorem add_length_le_of_isPrefix (hpos : pos ≤ line.length) (h : part <+: line.drop pos) :
    pos + part.length ≤ line.length := by
  have hlength := h.length_le
  rw [List.length_drop] at hlength
  omega

/-- **Up to a position, a line consists of some tokens.** Behind the last one, there may be
blanks. -/
structure Written (line : Line) (pos : Nat) (tokens : List Line) : Prop where
  le_length : pos ≤ line.length
  spelled : Spelled tokens (line.take pos)

theorem written_zero (line : Line) : line.Written 0 [] := ⟨Nat.zero_le _, .done blanks_nil⟩

theorem Written.append (h : line.Written pos tokens) {more : List Line}
    (hpart : part <+: line.drop pos) (hmore : Spelled more part) :
    line.Written (pos + part.length) (tokens ++ more) := by
  refine ⟨add_length_le_of_isPrefix h.le_length hpart, ?_⟩
  rw [take_add_of_isPrefix hpart]
  exact h.spelled.append hmore

/-- Blanks can be passed over. -/
theorem Written.blankEnd (h : line.Written pos tokens) :
    line.Written (line.blankEnd pos) tokens := by
  have hblanks : Blanks ((line.drop pos).takeWhile isBlank) := fun c hc => List.mem_takeWhile_imp hc
  have happend := h.append (List.takeWhile_prefix isBlank) (.done hblanks)
  rwa [List.append_nil] at happend

/-- A token can be passed over. -/
theorem Written.stands (h : line.Written pos tokens) {token : Line}
    (hstands : line.Stands pos token stop) : line.Written stop (tokens ++ [token]) := by
  obtain ⟨hpart, rfl⟩ := hstands
  refine h.blankEnd.append hpart ?_
  simpa using spelled_flatten [token]

/-- An element can be passed over. -/
theorem Written.element (h : line.Written pos tokens) {element : Element}
    (hstands : element.Stands line pos stop) : line.Written stop (tokens ++ element.tokens) := by
  obtain ⟨start, after, hopener, hlabel, hcloser⟩ := hstands
  have hwritten := ((h.stands hopener).stands hlabel).stands hcloser
  rwa [List.append_assoc, List.append_assoc] at hwritten

/-- What stands to the left of a position can be continued to a statement, in the same line. -/
structure Repairable (line : Line) (pos : Nat) : Prop where
  le_length : pos ≤ line.length
  exists_read : ∃ rest statement, '\n' ∉ rest ∧
    Statement.read (line.take pos ++ rest) = .ok statement

end Line

/-- **Tokens that a statement can begin with**, and end in the same line. -/
def Begins (tokens : List Line) : Prop :=
  ∃ more : List Line, ∃ statement : Statement, tokens ++ more = statement.tokens ∧
    statement.Writable ∧ ∀ token ∈ more, '\n' ∉ token

theorem Line.Written.repairable {line : Line} {pos : Nat} {tokens : List Line}
    (h : line.Written pos tokens) (hbegins : Begins tokens) : line.Repairable pos := by
  obtain ⟨more, statement, htokens, hstatement, hmore⟩ := hbegins
  refine ⟨h.le_length, more.flatten, statement, ?_, ?_⟩
  · rw [List.mem_flatten]
    rintro ⟨token, htoken, hmem⟩
    exact hmore token htoken hmem
  · rw [Statement.read_eq_ok_iff, ← htokens]
    exact ⟨hstatement, h.spelled.append (spelled_flatten more)⟩

/-! ## Elements -/

/-- **Where the reading of an element can break off**: in front of its opener, of its label, or of
its closer. -/
inductive Element.BreaksOff (line : Line) (pos : Nat) : Nat → Prop
  | opener : BreaksOff line pos (line.blankEnd pos)
  | label {enclosure : Enclosure} {start : Nat}
    (hopener : line.Stands pos [enclosure.opener] start) :
    BreaksOff line pos (line.blankEnd start)
  | closer {element : Element} {start after : Nat} (hlabel : element.label.Writable)
    (hopener : line.Stands pos [element.enclosure.opener] start)
    (hstands : line.Stands start element.label.token after) :
    BreaksOff line pos (line.blankEnd after)

section Elements

variable {line : Line} {pos stop : Nat} {tokens : List Line}

theorem Line.eq_of_readName_eq_error {e : Failure Fault} (h : line.readName pos = .error e) :
    e = ⟨.expectedVariable, line.blankEnd pos⟩ := by
  simp only [readName] at h
  split at h
  · exact (Except.error.inj h).symm
  · cases h

theorem Line.eq_of_readString_eq_error {e : Failure Fault} (h : line.readString pos = .error e) :
    e = ⟨.invalidString, line.blankEnd pos⟩ := by
  simp only [readString] at h
  split at h
  · split at h
    · cases h
    · exact (Except.error.inj h).symm
  · exact (Except.error.inj h).symm

/-- Reading a bracketed item breaks off like reading an element, if reading what is inside gives a
label or fails in front of it. -/
theorem Line.breaksOff_of_readBracketed {inner : Line → Nat → Parsed String}
    (label : String → Label)
    (hok : ∀ start text after, inner line start = .ok (text, after) →
      (label text).Writable ∧ line.Stands start (label text).token after)
    (herror : ∀ start e, inner line start = .error e → e.pos = line.blankEnd start)
    {e : Failure Fault} (h : readBracketed inner line pos = .error e) :
    Element.BreaksOff line pos e.pos := by
  simp only [readBracketed] at h
  split at h
  · cases h
    exact .opener
  · rename_i enclosure hopen
    obtain ⟨c, hc, hfound⟩ := Option.bind_eq_some_iff.1 hopen
    rw [Enclosure.ofOpener?_eq_some_iff] at hfound
    have hopener : line.Stands pos [enclosure.opener] (line.blankEnd pos + 1) :=
      stands_singleton_iff.2 ⟨hfound ▸ hc, rfl⟩
    split at h
    · rename_i e' hinner
      cases h
      exact herror _ e hinner ▸ .label hopener
    · rename_i text after hinner
      obtain ⟨hlabel, hstands⟩ := hok _ text after hinner
      split at h
      · cases h
      · cases h
        exact @Element.BreaksOff.closer line pos ⟨enclosure, label text⟩ _ after hlabel hopener
          hstands

/-- **The reading of an element breaks off in front of one of its tokens.** -/
theorem Element.breaksOff_of_read {e : Failure Fault} (h : Element.read line pos = .error e) :
    e.fault = .expectedElement ∧ Element.BreaksOff line pos e.pos := by
  have hliteral : ∀ e, line.readLiteral pos = .error e → Element.BreaksOff line pos e.pos := by
    intro e he
    refine Line.breaksOff_of_readBracketed .literal (fun start text after hread => ?_)
      (fun start e hread => congrArg Failure.pos (Line.eq_of_readString_eq_error hread)) he
    exact (Line.readString_eq_ok_iff.1 hread).symm
  have hreference : ∀ e, line.readReference pos = .error e → Element.BreaksOff line pos e.pos := by
    intro e he
    refine Line.breaksOff_of_readBracketed .reference (fun start name after hread => ?_)
      (fun start e hread => congrArg Failure.pos (Line.eq_of_readName_eq_error hread)) he
    obtain ⟨hstands, hname, -⟩ := Line.readName_eq_ok_iff.1 hread
    exact ⟨hname, hstands⟩
  simp only [Element.read] at h
  split at h
  · cases h
  · rename_i e' he'
    cases h
    refine ⟨rfl, ?_⟩
    rcases firstOrFurthest_eq_error he' with he' | he'
    · exact hliteral e' (eq_error_of_map he')
    · exact hreference e' (eq_error_of_map he')

/-- A label that is as short as a label can be. -/
theorem writable_reference : (Label.reference "a").Writable := by
  simp [Label.Writable, Line.IsName]

/-- **Wherever the reading of an element breaks off, it can be completed.** -/
theorem Element.BreaksOff.exists_written (h : Element.BreaksOff line pos stop)
    (hwritten : line.Written pos tokens) :
    ∃ (element : Element) (part more : List Line), element.label.Writable ∧
      part ++ more = element.tokens ∧ (∀ token ∈ more, '\n' ∉ token) ∧
        line.Written stop (tokens ++ part) := by
  have hopener : ∀ enclosure : Enclosure, '\n' ≠ enclosure.opener := by
    intro enclosure
    cases enclosure <;> decide
  have hcloser : ∀ enclosure : Enclosure, '\n' ≠ enclosure.closer := by
    intro enclosure
    cases enclosure <;> decide
  have ha : '\n' ∉ (Label.reference "a").token := by decide
  cases h with
  | opener =>
    refine ⟨⟨.rectangle, .reference "a"⟩, [], _, writable_reference, rfl, ?_, ?_⟩
    · simpa [Element.tokens] using ⟨hopener .rectangle, ha, hcloser .rectangle⟩
    · rw [List.append_nil]
      exact hwritten.blankEnd
  | @label enclosure start hstands =>
    refine ⟨⟨enclosure, .reference "a"⟩, [[enclosure.opener]], _, writable_reference, rfl, ?_, ?_⟩
    · simpa using ⟨ha, hcloser enclosure⟩
    · exact (hwritten.stands hstands).blankEnd
  | @closer element start after hlabel hstands hafter =>
    refine ⟨element, [[element.enclosure.opener], element.label.token], _, hlabel, rfl, ?_, ?_⟩
    · simpa using hcloser element.enclosure
    · have hboth := ((hwritten.stands hstands).stands hafter).blankEnd
      rwa [List.append_assoc] at hboth

end Elements

/-! ## Chains -/

section Chains

variable {line : Line} {pos : Nat} {first : Element} {links : List (Arrow × Element)}

/-- A chain is a statement. -/
theorem Chain.begins_tokens (hchain : (Chain.ofLinks first links).Writable) :
    Begins (Chain.ofLinks first links).tokens :=
  ⟨[], .chain (Chain.ofLinks first links), List.append_nil _, hchain, List.forall_mem_nil _⟩

/-- A link that can be written makes a chain longer. -/
theorem Chain.writable_concat (hchain : (Chain.ofLinks first links).Writable) (arrow : Arrow)
    {element : Element} (hlabel : element.label.Writable) :
    (Chain.ofLinks first (links ++ [(arrow, element)])).Writable := by
  obtain ⟨hfirst, hlinks⟩ := Chain.writable_ofLinks_iff.1 hchain
  refine Chain.writable_ofLinks_iff.2 ⟨hfirst, fun link hlink => ?_⟩
  rcases List.mem_append.1 hlink with hlink | hlink
  · exact hlinks link hlink
  · exact List.mem_singleton.1 hlink ▸ hlabel

theorem Chain.tokens_concat (first : Element) (links : List (Arrow × Element)) (arrow : Arrow)
    (element : Element) :
    (Chain.ofLinks first (links ++ [(arrow, element)])).tokens =
      (Chain.ofLinks first links).tokens ++ [arrow.symbol.toList] ++ element.tokens := by
  rw [Chain.tokens_ofLinks, Chain.tokens_ofLinks, linkTokens, linkTokens, List.flatMap_append,
    List.flatMap_singleton]
  simp only [List.append_assoc, List.cons_append, List.nil_append]

/-- An arrow stands where it is found. -/
theorem Arrow.stands_of_ofSymbol? {arrow : Arrow}
    (h : Arrow.ofSymbol? ((line.drop (line.blankEnd pos)).take 2) = some arrow) :
    line.Stands pos arrow.symbol.toList (line.blankEnd pos + 2) := by
  obtain ⟨c, d, hsymbol, -⟩ := arrow.exists_symbol_eq
  rw [hsymbol]
  exact Line.stands_pair_iff.2 ⟨(Arrow.ofSymbol?_eq_some_iff.1 h).trans hsymbol, rfl⟩

/-- Behind an arrow, a chain can be continued wherever an element breaks off. -/
theorem Chain.repairable_of_breaksOff (hchain : (Chain.ofLinks first links).Writable)
    (hwritten : line.Written pos (Chain.ofLinks first links).tokens) {arrow : Arrow} {start : Nat}
    (harrow : line.Stands pos arrow.symbol.toList start) {stop : Nat}
    (hbreak : Element.BreaksOff line start stop) : line.Repairable stop := by
  obtain ⟨element, part, more, hlabel, htokens, hmore, hpart⟩ :=
    hbreak.exists_written (hwritten.stands harrow)
  refine hpart.repairable ⟨more, .chain (Chain.ofLinks first (links ++ [(arrow, element)])), ?_,
    Chain.writable_concat hchain arrow hlabel, hmore⟩
  show _ = (Chain.ofLinks first (links ++ [(arrow, element)])).tokens
  rw [Chain.tokens_concat, ← htokens, List.append_assoc]

/-- **Behind a chain, a failure lies where the chain can be continued.** The induction is on the
links that are read; the chain in front of them grows. -/
theorem Chain.repairable_of_readLinks {e : Failure Fault} (h : Chain.readLinks line pos = .error e)
    (hchain : (Chain.ofLinks first links).Writable)
    (hwritten : line.Written pos (Chain.ofLinks first links).tokens) :
    e.fault ≠ .emptyDeclaration ∧ line.Repairable e.pos := by
  fun_induction Chain.readLinks line pos generalizing links with
  | case1 => cases h
  | case2 pos next hnext =>
    cases h
    exact ⟨by simp, hwritten.blankEnd.repairable (Chain.begins_tokens hchain)⟩
  | case3 pos next hnext arrow hfound =>
    cases h
    have harrow := Arrow.stands_of_ofSymbol? hfound
    exact ⟨by simp, Chain.repairable_of_breaksOff hchain hwritten harrow .opener⟩
  | case4 pos next hnext arrow hfound =>
    rename_i hread
    cases h
    have harrow := Arrow.stands_of_ofSymbol? hfound
    obtain ⟨hfault, hbreak⟩ := Element.breaksOff_of_read hread
    exact ⟨by simp [hfault], Chain.repairable_of_breaksOff hchain hwritten harrow hbreak⟩
  | case5 pos next hnext arrow hfound =>
    rename_i element stop hread e' hlinks ih
    cases h
    have harrow := Arrow.stands_of_ofSymbol? hfound
    obtain ⟨hlabel, hstands⟩ := Element.read_eq_ok_iff.1 hread
    refine ih hlinks (Chain.writable_concat hchain arrow hlabel) ?_
    rw [Chain.tokens_concat]
    exact (hwritten.stands harrow).element hstands
  | case6 => cases h

/-- An element is a chain without links. -/
theorem Chain.writable_ofLinks_nil {element : Element} (h : element.label.Writable) :
    (Chain.ofLinks element []).Writable :=
  Chain.writable_ofLinks_iff.2 ⟨h, List.forall_mem_nil _⟩

theorem Chain.tokens_ofLinks_nil (element : Element) :
    (Chain.ofLinks element []).tokens = element.tokens := by
  rw [Chain.tokens_ofLinks]
  exact List.append_nil _

/-- **No chain breaks off where it cannot be continued.** -/
theorem Chain.repairable_of_read {e : Failure Fault} (h : Chain.read line = .error e) :
    e.fault ≠ .emptyDeclaration ∧ line.Repairable e.pos := by
  simp only [Chain.read] at h
  split at h
  · rename_i e' hread
    cases h
    obtain ⟨hfault, hbreak⟩ := Element.breaksOff_of_read hread
    obtain ⟨element, part, more, hlabel, htokens, hmore, hpart⟩ :=
      hbreak.exists_written line.written_zero
    refine ⟨by simp [hfault], hpart.repairable ⟨more, .chain (Chain.ofLinks element []), ?_,
      Chain.writable_ofLinks_nil hlabel, hmore⟩⟩
    show [] ++ part ++ more = (Chain.ofLinks element []).tokens
    rw [Chain.tokens_ofLinks_nil, List.nil_append, htokens]
  · rename_i first stop hread
    obtain ⟨hlabel, hstands⟩ := Element.read_eq_ok_iff.1 hread
    have hwritten : line.Written stop (Chain.ofLinks first []).tokens := by
      rw [Chain.tokens_ofLinks_nil]
      exact line.written_zero.element hstands
    split at h
    · rename_i e' hlinks
      cases h
      exact Chain.repairable_of_readLinks hlinks (Chain.writable_ofLinks_nil hlabel) hwritten
    · cases h

end Chains

/-! ## Declarations -/

/-- The value `a` can be declared for every name. -/
theorem Declaration.writable_a {name : String} (hname : Line.IsName name) :
    (Declaration.mk name "a").Writable :=
  ⟨hname, (by decide : "a" ≠ ""), by simp [Line.Quotable]⟩

theorem begins_nil : Begins [] := by
  have ha : Line.IsName "a" := by simp [Line.IsName]
  exact ⟨_, .declaration ⟨"a", "a"⟩, rfl, Declaration.writable_a ha, by decide⟩

/-- Behind a name, the sign `:=` and a value can follow. -/
theorem Line.IsName.begins {name : String} (hname : Line.IsName name) : Begins [name.toList] := by
  have hmore : ∀ token ∈ [[':', '='], Line.quoted "a"], '\n' ∉ token := by decide
  exact ⟨_, .declaration ⟨name, "a"⟩, rfl, Declaration.writable_a hname, hmore⟩

/-- Behind a name and the sign `:=`, a value can follow. -/
theorem Line.IsName.begins_assign {name : String} (hname : Line.IsName name) :
    Begins [name.toList, [':', '=']] := by
  have hmore : ∀ token ∈ [Line.quoted "a"], '\n' ∉ token := by decide
  exact ⟨_, .declaration ⟨name, "a"⟩, rfl, Declaration.writable_a hname, hmore⟩

/-- **No declaration breaks off where it cannot be continued.** -/
theorem Declaration.repairable_of_read {line : Line} {e : Failure Fault}
    (h : Declaration.read line = .error e) (hline : ¬Blanks line) :
    e.fault ≠ .emptyDeclaration ∧ line.Repairable e.pos := by
  simp only [Declaration.read] at h
  split at h
  · rename_i hblank
    exact absurd (Line.length_le_blankEnd_iff.1 hblank) hline
  · split at h
    · cases h
      exact ⟨by simp, line.written_zero.blankEnd.repairable begins_nil⟩
    · rename_i hname
      obtain ⟨hstands, hletters, -⟩ :=
        (Line.readLetters_eq_iff (by simpa using hname)).1 (Prod.eta _).symm
      have hwritten := line.written_zero.blankEnd.stands hstands
      split at h
      · cases h
        exact ⟨by simp, hwritten.blankEnd.repairable hletters.begins⟩
      · rename_i hassign
        have hassigned := hwritten.stands (Line.stands_pair_iff.2 ⟨not_not.1 hassign, rfl⟩)
        split at h
        · rename_i e' hvalue
          cases h
          obtain rfl := Line.eq_of_readString_eq_error hvalue
          exact ⟨by simp, hassigned.blankEnd.blankEnd.repairable hletters.begins_assign⟩
        · rename_i value valueEnd hvalue
          obtain ⟨hquoted, hquotable⟩ := Line.readString_eq_ok_iff.1 hvalue
          split at h
          · cases h
            exact ⟨by simp, hassigned.blankEnd.repairable hletters.begins_assign⟩
          · rename_i hvalue_ne
            split at h
            · cases h
              have hdeclaration : Declaration.Writable ⟨_, value⟩ :=
                ⟨hletters, by simpa using hvalue_ne, hquotable⟩
              exact ⟨by simp, (hassigned.blankEnd.stands hquoted).blankEnd.repairable
                ⟨[], .declaration ⟨_, value⟩, rfl, hdeclaration, List.forall_mem_nil _⟩⟩
            · cases h

/-- **No statement breaks off where it cannot be continued.** -/
theorem Statement.repairable_of_read {line : Line} {e : Failure Fault}
    (h : Statement.read line = .error e) (hline : ¬Blanks line) :
    e.fault ≠ .emptyDeclaration ∧ line.Repairable e.pos := by
  rcases firstOrFurthest_eq_error h with h | h
  · exact Declaration.repairable_of_read (eq_error_of_map h) hline
  · exact Chain.repairable_of_read (eq_error_of_map h)

/-! ## Statements in lines -/

/-- The first character of a token is no whitespace. -/
theorem IsToken.exists_cons {token : Line} (h : IsToken token) :
    ∃ c rest, token = c :: rest ∧ ¬isWhitespace c := by
  cases h with
  | opener enclosure => exact ⟨_, [], rfl, enclosure.not_isWhitespace_opener⟩
  | closer enclosure => exact ⟨_, [], rfl, enclosure.not_isWhitespace_closer⟩
  | quoted htext => exact ⟨'"', _, rfl, by decide⟩
  | name hname =>
    obtain ⟨c, rest, htoken, hc⟩ := hname.exists_cons
    exact ⟨c, rest, htoken, not_isWhitespace_of_isAlpha hc⟩
  | arrow arrow =>
    cases arrow with
    | forward => exact ⟨'-', ['>'], rfl, by decide⟩
    | backward => exact ⟨'<', ['-'], rfl, by decide⟩
  | assign => exact ⟨':', ['='], rfl, by decide⟩

/-- Whitespace in front of the first token can be left out. -/
theorem Spelled.of_spaces_append {tokens : List Line} {spaces line : Line}
    (h : Spelled tokens (spaces ++ line)) (htokens : ∀ token ∈ tokens, IsToken token)
    (hspaces : Spaces spaces) : Spelled tokens line := by
  generalize htext : spaces ++ line = text at h
  cases h with
  | done hgap =>
    refine .done fun c hc => hgap c ?_
    exact htext ▸ List.mem_append_right spaces hc
  | @token gap token rest tokens hgap hrest =>
    obtain ⟨c, token', rfl, hc⟩ := (htokens token List.mem_cons_self).exists_cons
    rcases List.append_eq_append_iff.1 htext with ⟨gap', rfl, rfl⟩ | ⟨more, rfl, hmore⟩
    · exact .token (fun c hc => hgap c (List.mem_append_right spaces hc)) hrest
    · -- the whitespace cannot reach into the token
      cases more with
      | nil =>
        have hline : line = [] ++ (c :: token' ++ rest) := hmore.symm
        exact hline ▸ .token blanks_nil hrest
      | cons d more =>
        obtain rfl : c = d := (List.cons.inj hmore).1
        exact absurd (hspaces c (by simp)) hc

/-- **A statement does not need the whitespace around it.** -/
theorem Statement.read_trim {line : Line} {statement : Statement}
    (h : Statement.read line = .ok statement) : Statement.read (trim line) = .ok statement := by
  obtain ⟨front, back, hfront, hback, hline⟩ := exists_eq_append_trim line
  generalize trim line = text at hline ⊢
  subst hline
  obtain ⟨hstatement, hspelled⟩ := Statement.read_eq_ok_iff.1 h
  have hread : Statement.read (text ++ back) = .ok statement :=
    Statement.read_eq_ok_iff.2
      ⟨hstatement, hspelled.of_spaces_append hstatement.isToken hfront⟩
  exact ((Statement.read_append_spaces_iff hback).1 hread).1

/-- **A line says the statement that it consists of**, behind whatever indentation. -/
theorem Line.text?_of_read {front line : Line} (hfront : Spaces front) {statement : Statement}
    (h : Statement.read line = .ok statement) : Line.text? (front ++ line) = some (trim line) := by
  have hread := Statement.read_trim h
  have hplain := Statement.withoutComment_of_read hread
  obtain ⟨front', back, hfront', hback, hline⟩ := exists_eq_append_trim line
  have hsplit : front ++ line = (front ++ front') ++ (trim line ++ back) := by
    rw [List.append_assoc, ← hline]
  have hsays : ¬((trim line).isEmpty ∨ (trim line).head? = some '#') := by
    rintro (hempty | hcomment)
    · rw [List.isEmpty_iff.1 hempty] at hread
      exact Statement.read_nil_ne_ok statement hread
    · obtain ⟨rest, hrest⟩ := List.head?_eq_some_iff.1 hcomment
      rw [hrest] at hplain
      cases hplain
  rw [Line.text?, hsplit, SourceLine.ofRaw?_append 0 (hfront.append hfront') hback
    (trimmed_trim line), if_neg hsays, Option.map_some, hplain]

theorem isWhitespace_of_isBlank {c : Char} (h : isBlank c) : isWhitespace c := by
  simp only [isBlank, Bool.or_eq_true, decide_eq_true_eq] at h
  rcases h with rfl | rfl <;> decide

/-- **The text of a line stands in the raw line**, behind the indentation, and it is not blank. -/
theorem SourceLine.exists_eq_append {number : Nat} {raw : Line} {line : SourceLine}
    (h : SourceLine.ofRaw? number raw = some line) :
    ∃ front back, raw = front ++ (line.text ++ back) ∧ Spaces front ∧ ¬Blanks line.text ∧
      line.indent = front.length ∧ front = raw.takeWhile isWhitespace := by
  obtain ⟨front, back, hfront, hback, hraw⟩ := exists_eq_append_trim raw
  have htext := trimmed_trim raw
  generalize trim raw = text at hraw htext
  subst hraw
  rw [SourceLine.ofRaw?_append number hfront hback htext] at h
  split at h
  · cases h
  · rename_i hsays
    obtain rfl := Option.some.inj h
    cases text with
    | nil => exact absurd (.inl rfl) hsays
    | cons c text =>
      have hc : ¬isWhitespace c := htext.head c rfl
      obtain ⟨comment, hcomment⟩ := Line.exists_uncommented_append false (c :: text)
      refine ⟨front, comment ++ back, ?_, hfront, fun hblanks => hc ?_, rfl, ?_⟩
      · rw [← List.append_assoc _ comment, Line.withoutComment, hcomment]
      · have hhash : ¬(c = '#' ∧ false = false) := fun h => hsays (.inr (congrArg some h.1))
        refine isWhitespace_of_isBlank (hblanks c ?_)
        show c ∈ Line.uncommented false (c :: text)
        rw [Line.uncommented, if_neg hhash]
        exact List.mem_cons_self
      · have hhead : ∀ d ∈ (c :: text ++ back).head?, ¬isWhitespace d := htext.head
        exact (Line.takeWhile_append_of_head? hfront hhead).symm

/-- **A line that is no statement can be repaired** at the column of the failure. -/
theorem SourceLine.exists_repair {number : Nat} {raw : Line} {line : SourceLine}
    (hline : SourceLine.ofRaw? number raw = some line) {e : Failure Fault}
    (hread : Statement.read line.text = .error e) :
    e.fault ≠ .emptyDeclaration ∧ (raw.takeWhile isWhitespace).length + 1 ≤ line.column e.pos ∧
      line.column e.pos ≤ raw.length + 1 ∧
      ∃ rest text statement, '\n' ∉ rest ∧
        Line.text? (raw.take (line.column e.pos - 1) ++ rest) = some text ∧
        Statement.read text = .ok statement := by
  obtain ⟨front, back, hraw, hfront, hblank, hindent, htake⟩ := SourceLine.exists_eq_append hline
  obtain ⟨hfault, hle, rest, statement, hrest, hstatement⟩ :=
    Statement.repairable_of_read hread hblank
  have hlength : raw.length = front.length + (line.text.length + back.length) := by
    rw [hraw, List.length_append, List.length_append]
  have hleft : raw.take (line.column e.pos - 1) = front ++ line.text.take e.pos := by
    rw [SourceLine.column, Nat.add_sub_cancel, hindent, hraw, List.take_length_add_append,
      List.take_append_of_le_length hle]
  refine ⟨hfault, ?_, ?_, rest, trim (line.text.take e.pos ++ rest), statement, hrest, ?_,
    Statement.read_trim hstatement⟩
  · rw [SourceLine.column, ← htake]
    omega
  · rw [SourceLine.column]
    omega
  · rw [hleft, List.append_assoc]
    exact Line.text?_of_read hfront hstatement

theorem Fault.message_ne {fault : Fault} (h : fault ≠ .emptyDeclaration) :
    fault.message ≠ Fault.emptyDeclaration.message := by
  cases fault with
  | emptyDeclaration => exact absurd rfl h
  | _ => decide

/-- **Syntax errors point to a place where the line can be repaired.** The line is one of the text,
and the column is not in its indentation, and at most one behind its end. There is a text that makes
a statement of what stands to the left of that column. An empty declaration is never reported. -/
theorem syntax_errors_can_be_repaired {source : String} {line column : Nat} {message : String}
    (h : compile source = .error (.syntaxError line column message)) :
    1 ≤ line ∧ line ≤ (linesOf source).length ∧ message ≠ "empty declaration" ∧
      ∃ raw, (linesOf source)[line - 1]? = some raw ∧
        (raw.takeWhile isWhitespace).length + 1 ≤ column ∧ column ≤ raw.length + 1 ∧
        ∃ rest text statement, '\n' ∉ rest ∧
          Line.text? (raw.take (column - 1) ++ rest) = some text ∧
          Statement.read text = .ok statement := by
  obtain ⟨read, hmem, e, hread, rfl, rfl, rfl⟩ := exists_failure_of_compile h
  obtain ⟨index, raw, hget, hline, hnumber⟩ := exists_raw_of_mem_sourceLines hmem
  obtain ⟨hfault, hrepair⟩ := SourceLine.exists_repair hline hread
  obtain ⟨hlt, -⟩ := List.getElem?_eq_some_iff.1 hget
  refine ⟨by omega, by omega, Fault.message_ne hfault, raw, ?_, hrepair⟩
  rw [hnumber, Nat.add_sub_cancel_left]
  exact hget

/-- In the third line, the link leads to nothing but a comment. The column is that of the comment,
and an element in its place is all that is missing. -/
theorem syntax_errors_can_be_repaired_dangling :
    compile "a := \"v\"\n\n  [a] -> # b" = .error (.syntaxError 3 10 "dangling link") ∧
      ∃ rest text statement, '\n' ∉ rest ∧ Line.text? ("  [a] -> ".toList ++ rest) = some text ∧
        Statement.read text = .ok statement := by
  have hlines : sourceLines "a := \"v\"\n\n  [a] -> # b" =
      [⟨1, 0, "a := \"v\"".toList⟩, ⟨3, 2, "[a] -> ".toList⟩] := by rfl
  have hfirst : Statement.read "a := \"v\"".toList = .ok (.declaration ⟨"a", "v"⟩) := by cbv
  have hsecond : Statement.read "[a] -> ".toList = .error ⟨.danglingLink, 7⟩ := by cbv
  have h : compile "a := \"v\"\n\n  [a] -> # b" = .error (.syntaxError 3 10 "dangling link") := by
    rw [compile, hlines]
    simp only [List.foldlM_cons, Draft.readLine, hfirst, hsecond]
    rfl
  obtain ⟨-, -, -, raw, hraw, -, -, hrepair⟩ := syntax_errors_can_be_repaired h
  obtain rfl : "  [a] -> # b".toList = raw := Option.some.inj hraw
  exact ⟨h, hrepair⟩

end ChainDiagram
