import ChainDiagram.Proofs.Spelling
import ChainDiagram.Statement.Reader

/-!
# The grammar of statements

The readers of `ChainDiagram.Statement.Reader` accept a line exactly if it is spelled by the tokens
of a statement that can be written, and they answer that statement.

## What is here

* `Declaration.tokens`, `Chain.tokens`: how statements are written, and `Declaration.Writable`,
  `Chain.Writable`: which of them can be. A text between quotes holds no quote, a name is a run of
  letters, and a chain has an arrow between any two neighbours.
* `Element.read_eq_ok_iff`, `Chain.readLinks_eq_ok_iff`: the readers of the parts of a chain, at any
  position of a line.
* `Chain.read_eq_ok_iff`, `Declaration.read_eq_ok_iff`: the readers of whole lines. No line is both
  (`Declaration.read_ne_ok_of_chain`), so a line that is either is read as what it is
  (`Statement.read_eq_declaration_iff`, `Statement.read_eq_chain_iff`).
* `IsToken`: the tokens that there are.
-/

set_option autoImplicit false

namespace ChainDiagram

/-! ## Readers that can fail -/

/-- A step of a reader succeeds, and so does the rest with what the step has read. -/
theorem bind_eq_ok_iff {F α β : Type} {x : Except F α} {f : α → Except F β} {b : β} :
    (x >>= f) = .ok b ↔ ∃ a, x = .ok a ∧ f a = .ok b := by
  cases x <;> simp [bind, Except.bind]

/-- The second way is only taken if the first one leads nowhere. -/
theorem firstOrFurthest_eq_ok_iff {F α : Type} {first second : Except (Failure F) α} {a : α} :
    firstOrFurthest first second = .ok a ↔
      first = .ok a ∨ (∀ b, first ≠ .ok b) ∧ second = .ok a := by
  cases first <;> cases second <;> simp

/-- What fails in both of two ways, fails like one of them. -/
theorem firstOrFurthest_eq_error {F α : Type} {first second : Except (Failure F) α} {e : Failure F}
    (h : firstOrFurthest first second = .error e) : first = .error e ∨ second = .error e := by
  cases first with
  | ok a => cases h
  | error e₁ =>
    cases second with
    | ok a => cases h
    | error e₂ =>
      obtain rfl : e₁.further e₂ = e := Except.error.inj h
      rw [Failure.further]
      split
      · exact .inr rfl
      · exact .inl rfl

theorem eq_error_of_map {ε α β : Type} {f : α → β} {x : Except ε α} {e : ε}
    (h : x.map f = .error e) : x = .error e := by
  cases x with
  | ok a => cases h
  | error e' => exact congrArg Except.error (Except.error.inj h)

/-! ## How statements are written -/

/-- What stands between the brackets of an element. -/
def Label.token : Label → Line
  | .literal text => Line.quoted text
  | .reference name => name.toList

/-- A label that can be written. A literal may be empty, but it cannot hold a quote. -/
def Label.Writable : Label → Prop
  | .literal text => Line.Quotable text
  | .reference name => Line.IsName name

/-- An element is a label between the brackets of its enclosure. -/
def Element.tokens (element : Element) : List Line :=
  [[element.enclosure.opener], element.label.token, [element.enclosure.closer]]

/-- The links to the right of an element: each is an arrow and the next element. -/
def linkTokens (links : List (Arrow × Element)) : List Line :=
  links.flatMap fun (arrow, element) => arrow.symbol.toList :: element.tokens

/-- A chain is an element and the links to its right. -/
def Chain.tokens (chain : Chain) : List Line :=
  match chain.elements with
  | [] => []
  | first :: rest => first.tokens ++ linkTokens (chain.arrows.zip rest)

/-- A chain that can be written. -/
structure Chain.Writable (chain : Chain) : Prop where
  /-- There is one arrow between any two neighbours. -/
  length_elements : chain.elements.length = chain.arrows.length + 1
  label : ∀ element ∈ chain.elements, element.label.Writable

/-- A declaration is a name, the sign `:=`, and a string. -/
def Declaration.tokens (declaration : Declaration) : List Line :=
  [declaration.name.toList, [':', '='], Line.quoted declaration.value]

/-- A declaration that can be written. -/
structure Declaration.Writable (declaration : Declaration) : Prop where
  name : Line.IsName declaration.name
  value_ne_empty : declaration.value ≠ ""
  value : Line.Quotable declaration.value

/-! ## Elements -/

/-- The tokens of an element stand in the line, the first at `pos`, and the last ends at `stop`. -/
def Element.Stands (line : Line) (pos : Nat) (element : Element) (stop : Nat) : Prop :=
  ∃ start after, line.Stands pos [element.enclosure.opener] start ∧
    line.Stands start element.label.token after ∧
      line.Stands after [element.enclosure.closer] stop

/-- A label begins with its first character, not with a blank. -/
theorem Label.exists_token_eq_cons {label : Label} (h : label.Writable) :
    ∃ c rest, label.token = c :: rest ∧ ¬isBlank c := by
  cases label with
  | literal text => exact ⟨'"', text.toList ++ ['"'], rfl, by decide⟩
  | reference name =>
    obtain ⟨c, rest, hname, hc⟩ := h.exists_cons
    exact ⟨c, rest, hname, Line.not_isBlank_of_isAlpha hc⟩

/-- **An element that stands in a line begins what the line spells.** -/
theorem Element.spelled_append_drop_iff {line : Line} {element : Element} {tokens : List Line}
    {pos : Nat} (h : element.label.Writable) :
    Spelled (element.tokens ++ tokens) (line.drop pos) ↔
      ∃ stop, element.Stands line pos stop ∧ Spelled tokens (line.drop stop) := by
  obtain ⟨c, rest, htoken, hc⟩ := Label.exists_token_eq_cons h
  have hopener := Line.not_isBlank_opener element.enclosure
  have hcloser := Line.not_isBlank_closer element.enclosure
  simp only [Element.tokens, Element.Stands, htoken, List.cons_append, List.nil_append]
  refine ⟨fun hspelled => ?_, ?_⟩
  · obtain ⟨start, hstart, hspelled⟩ := (spelled_cons_drop_iff hopener).1 hspelled
    obtain ⟨after, hafter, hspelled⟩ := (spelled_cons_drop_iff hc).1 hspelled
    obtain ⟨stop, hstop, hspelled⟩ := (spelled_cons_drop_iff hcloser).1 hspelled
    exact ⟨stop, ⟨start, after, hstart, hafter, hstop⟩, hspelled⟩
  · rintro ⟨stop, ⟨start, after, hstart, hafter, hstop⟩, hspelled⟩
    refine (spelled_cons_drop_iff hopener).2 ⟨start, hstart, ?_⟩
    refine (spelled_cons_drop_iff hc).2 ⟨after, hafter, ?_⟩
    exact (spelled_cons_drop_iff hcloser).2 ⟨stop, hstop, hspelled⟩

/-- What begins with no letter ends the name in front of it. -/
theorem Line.Stands.endsName {line token : Line} {pos stop : Nat} {c : Char}
    (h : line.Stands pos (c :: token) stop) (hc : ¬c.isAlpha) : line.EndsName pos := by
  obtain ⟨gap, hgap, hdrop⟩ := line.exists_blanks_append pos
  rw [h.drop_eq] at hdrop
  intro d hd
  rw [hdrop] at hd
  cases gap with
  | nil =>
    obtain rfl : c = d := Option.some.inj hd
    exact hc
  | cons b gap =>
    obtain rfl : b = d := Option.some.inj hd
    exact fun halpha => not_isBlank_of_isAlpha halpha (hgap b List.mem_cons_self)

theorem Line.readLiteral_eq_ok_iff {line : Line} {pos stop : Nat} {text : String}
    {enclosure : Enclosure} :
    line.readLiteral pos = .ok ((text, enclosure), stop) ↔
      Quotable text ∧ Element.Stands line pos ⟨enclosure, .literal text⟩ stop := by
  simp only [readLiteral, readBracketed_eq_ok_iff, readString_eq_ok_iff, Element.Stands,
    Label.token]
  constructor
  · rintro ⟨start, after, hstart, ⟨hafter, htext⟩, hstop⟩
    exact ⟨htext, start, after, hstart, hafter, hstop⟩
  · rintro ⟨htext, start, after, hstart, hafter, hstop⟩
    exact ⟨start, after, hstart, ⟨hafter, htext⟩, hstop⟩

theorem Line.readReference_eq_ok_iff {line : Line} {pos stop : Nat} {name : String}
    {enclosure : Enclosure} :
    line.readReference pos = .ok ((name, enclosure), stop) ↔
      IsName name ∧ Element.Stands line pos ⟨enclosure, .reference name⟩ stop := by
  simp only [readReference, readBracketed_eq_ok_iff, readName_eq_ok_iff, Element.Stands,
    Label.token]
  constructor
  · rintro ⟨start, after, hstart, ⟨hafter, hname, -⟩, hstop⟩
    exact ⟨hname, start, after, hstart, hafter, hstop⟩
  · rintro ⟨hname, start, after, hstart, hafter, hstop⟩
    have hend := hstop.endsName (not_isAlpha_closer enclosure)
    exact ⟨start, after, hstart, ⟨hafter, hname, hend⟩, hstop⟩

/-- A name does not begin with a quote, so no element is both a literal and a reference. -/
theorem Line.readLiteral_ne_ok_of_readReference {line : Line} {pos stop : Nat} {name : String}
    {enclosure : Enclosure} (h : line.readReference pos = .ok ((name, enclosure), stop))
    (item : (String × Enclosure) × Nat) : line.readLiteral pos ≠ .ok item := by
  obtain ⟨⟨text, enclosure'⟩, stop'⟩ := item
  intro h'
  obtain ⟨hname, start, after, hstart, hafter, -⟩ := readReference_eq_ok_iff.1 h
  obtain ⟨-, start', after', hstart', hafter', -⟩ := readLiteral_eq_ok_iff.1 h'
  obtain ⟨c, rest, htoken, hc⟩ := hname.exists_cons
  obtain rfl : start' = start := hstart'.2.trans hstart.2.symm
  simp only [Label.token, htoken] at hafter
  obtain rfl : c = '"' := hafter.head_eq hafter'
  exact absurd hc (by decide)

theorem Element.map_ofBracketed_eq_ok_iff {label : String → Label}
    {found : Parsed (String × Enclosure)} {element : Element} {stop : Nat} :
    found.map (Element.ofBracketed label) = .ok (element, stop) ↔
      ∃ text, found = .ok ((text, element.enclosure), stop) ∧ element.label = label text := by
  obtain ⟨enclosure, label'⟩ := element
  cases found with
  | error e => simp [Except.map]
  | ok item =>
    obtain ⟨⟨text, enclosure'⟩, stop'⟩ := item
    simp only [Except.map, ofBracketed, Except.ok.injEq, Prod.mk.injEq, Element.mk.injEq]
    constructor
    · rintro ⟨⟨rfl, rfl⟩, rfl⟩
      exact ⟨text, ⟨⟨rfl, rfl⟩, rfl⟩, rfl⟩
    · rintro ⟨_, ⟨⟨rfl, rfl⟩, rfl⟩, rfl⟩
      exact ⟨⟨rfl, rfl⟩, rfl⟩

/-- **An element is read exactly where its tokens stand.** -/
theorem Element.read_eq_ok_iff {line : Line} {pos stop : Nat} {element : Element} :
    Element.read line pos = .ok (element, stop) ↔
      element.label.Writable ∧ element.Stands line pos stop := by
  have hread : Element.read line pos = .ok (element, stop) ↔
      firstOrFurthest ((line.readLiteral pos).map (ofBracketed .literal))
        ((line.readReference pos).map (ofBracketed .reference)) = .ok (element, stop) := by
    rw [Element.read]
    split
    · rename_i found h
      rw [h]
    · rename_i e h
      simp [h]
  obtain ⟨enclosure, label⟩ := element
  rw [hread, firstOrFurthest_eq_ok_iff, map_ofBracketed_eq_ok_iff, map_ofBracketed_eq_ok_iff]
  refine ⟨?_, fun h => ?_⟩
  · rintro (⟨text, h, rfl⟩ | ⟨-, name, h, rfl⟩)
    · exact Line.readLiteral_eq_ok_iff.1 h
    · exact Line.readReference_eq_ok_iff.1 h
  · cases label with
    | literal text => exact .inl ⟨text, Line.readLiteral_eq_ok_iff.2 h, rfl⟩
    | reference name =>
      have hreference := Line.readReference_eq_ok_iff.2 h
      refine .inr ⟨?_, name, hreference, rfl⟩
      intro b hb
      obtain ⟨found, stop⟩ := b
      obtain ⟨text, hliteral, -⟩ := map_ofBracketed_eq_ok_iff.1 hb
      exact Line.readLiteral_ne_ok_of_readReference hreference _ hliteral

/-! ## Chains -/

/-- An arrow is written with two characters, and it begins with no blank. -/
theorem Arrow.exists_symbol_eq (arrow : Arrow) :
    ∃ c d, arrow.symbol.toList = [c, d] ∧ ¬isBlank c := by
  cases arrow with
  | forward => exact ⟨'-', '>', rfl, by decide⟩
  | backward => exact ⟨'<', '-', rfl, by decide⟩

/-- Where an element stands, the line is not over. -/
theorem Element.Stands.blankEnd_lt {line : Line} {pos stop : Nat} {element : Element}
    (h : element.Stands line pos stop) : line.blankEnd pos < line.length := by
  obtain ⟨_, _, hopen, -⟩ := h
  exact Line.Stands.blankEnd_lt hopen

/-- One link is read, and then the links behind it. -/
theorem Chain.readLinks_eq (line : Line) (pos : Nat) :
    Chain.readLinks line pos =
      if line.length ≤ line.blankEnd pos then .ok []
      else
        match Arrow.ofSymbol? ((line.drop (line.blankEnd pos)).take 2) with
        | none => .error ⟨.expectedArrow, line.blankEnd pos⟩
        | some arrow =>
          if line.length ≤ line.blankEnd (line.blankEnd pos + 2) then
            .error ⟨.danglingLink, line.blankEnd (line.blankEnd pos + 2)⟩
          else do
            let (element, stop) ← Element.read line (line.blankEnd pos + 2)
            let links ← Chain.readLinks line stop
            return (arrow, element) :: links := by
  rw [Chain.readLinks]
  dsimp only
  split
  · rfl
  · cases Arrow.ofSymbol? ((line.drop (line.blankEnd pos)).take 2) with
    | none => rfl
    | some arrow =>
      dsimp only
      split
      · rfl
      · split
        · rename_i e hread
          rw [hread]
          rfl
        · rename_i element stop hread
          rw [hread]
          cases hlinks : Chain.readLinks line stop <;>
            simp only [bind, Except.bind, hlinks, pure, Except.pure]

/-- After the last link, nothing but blanks is left. -/
theorem Chain.readLinks_eq_ok_nil_iff {line : Line} {pos : Nat} :
    Chain.readLinks line pos = .ok [] ↔ Blanks (line.drop pos) := by
  rw [← Line.length_le_blankEnd_iff, Chain.readLinks_eq]
  refine ⟨fun h => ?_, fun h => ?_⟩
  · split at h
    · assumption
    · split at h
      · simp at h
      · split at h
        · simp at h
        · obtain ⟨⟨element, stop⟩, -, h⟩ := bind_eq_ok_iff.1 h
          obtain ⟨links, -, h⟩ := bind_eq_ok_iff.1 h
          exact absurd (Except.ok.inj h) (List.cons_ne_nil _ _)
  · rw [if_pos h]

/-- A link is an arrow and an element, and the next link is looked for behind them. -/
theorem Chain.readLinks_eq_ok_cons_iff {line : Line} {pos : Nat} {arrow : Arrow}
    {element : Element} {links : List (Arrow × Element)} :
    Chain.readLinks line pos = .ok ((arrow, element) :: links) ↔
      ∃ start stop, line.Stands pos arrow.symbol.toList start ∧
        Element.read line start = .ok (element, stop) ∧ Chain.readLinks line stop = .ok links := by
  obtain ⟨c, d, hsymbol, -⟩ := arrow.exists_symbol_eq
  rw [Chain.readLinks_eq, hsymbol]
  refine ⟨fun h => ?_, ?_⟩
  · split at h
    · simp at h
    · split at h
      · simp at h
      · rename_i found hfound
        split at h
        · simp at h
        · obtain ⟨⟨element', stop⟩, hread, h⟩ := bind_eq_ok_iff.1 h
          obtain ⟨links', hlinks, h⟩ := bind_eq_ok_iff.1 h
          obtain ⟨hlink, rfl⟩ := List.cons.inj (Except.ok.inj h)
          obtain ⟨rfl, rfl⟩ := Prod.mk.inj hlink
          have htake := (Arrow.ofSymbol?_eq_some_iff.1 hfound).trans hsymbol
          exact ⟨_, stop, Line.stands_pair_iff.2 ⟨htake, rfl⟩, hread, hlinks⟩
  · rintro ⟨start, stop, harrow, hread, hlinks⟩
    have hmore := Nat.not_le.2 harrow.blankEnd_lt
    have hnext := Nat.not_le.2 (Element.read_eq_ok_iff.1 hread).2.blankEnd_lt
    obtain ⟨htake, rfl⟩ := Line.stands_pair_iff.1 harrow
    have hfound := Arrow.ofSymbol?_eq_some_iff.2 (htake.trans hsymbol.symm)
    simp only [if_neg hmore, hfound, if_neg hnext, hread, hlinks, bind, Except.bind, pure,
      Except.pure]

/-- **Links are read exactly as they are spelled**, up to the end of the line. -/
theorem Chain.readLinks_eq_ok_iff {line : Line} {pos : Nat} {links : List (Arrow × Element)} :
    Chain.readLinks line pos = .ok links ↔
      (∀ link ∈ links, link.2.label.Writable) ∧ Spelled (linkTokens links) (line.drop pos) := by
  induction links generalizing pos with
  | nil =>
    rw [Chain.readLinks_eq_ok_nil_iff, linkTokens, List.flatMap_nil, spelled_nil_iff]
    simp
  | cons link links ih =>
    obtain ⟨arrow, element⟩ := link
    obtain ⟨c, d, hsymbol, hc⟩ := arrow.exists_symbol_eq
    have htokens : linkTokens ((arrow, element) :: links) =
        [c, d] :: (element.tokens ++ linkTokens links) := by
      simp only [linkTokens, List.flatMap_cons, hsymbol, List.cons_append]
    rw [Chain.readLinks_eq_ok_cons_iff, List.forall_mem_cons, htokens, spelled_cons_drop_iff hc,
      hsymbol]
    constructor
    · rintro ⟨start, stop, harrow, hread, hlinks⟩
      obtain ⟨hlabel, hstands⟩ := Element.read_eq_ok_iff.1 hread
      obtain ⟨hlabels, hspelled⟩ := ih.1 hlinks
      exact ⟨⟨hlabel, hlabels⟩, start, harrow,
        (Element.spelled_append_drop_iff hlabel).2 ⟨stop, hstands, hspelled⟩⟩
    · rintro ⟨⟨hlabel, hlabels⟩, start, harrow, hspelled⟩
      obtain ⟨stop, hstands, hspelled⟩ := (Element.spelled_append_drop_iff hlabel).1 hspelled
      exact ⟨start, stop, harrow, Element.read_eq_ok_iff.2 ⟨hlabel, hstands⟩,
        ih.2 ⟨hlabels, hspelled⟩⟩

/-- The chain of an element and the links to its right. -/
def Chain.ofLinks (first : Element) (links : List (Arrow × Element)) : Chain :=
  ⟨first :: links.map Prod.snd, links.map Prod.fst⟩

theorem Chain.tokens_ofLinks (first : Element) (links : List (Arrow × Element)) :
    (Chain.ofLinks first links).tokens = first.tokens ++ linkTokens links := by
  have hzip : links = (links.map Prod.fst).zip (links.map Prod.snd) := List.zip_of_prod rfl rfl
  show first.tokens ++ linkTokens ((links.map Prod.fst).zip (links.map Prod.snd)) = _
  rw [← hzip]

theorem Chain.writable_ofLinks_iff {first : Element} {links : List (Arrow × Element)} :
    (Chain.ofLinks first links).Writable ↔
      first.label.Writable ∧ ∀ link ∈ links, link.2.label.Writable := by
  refine ⟨fun h => ?_, ?_⟩
  · obtain ⟨hfirst, hrest⟩ := List.forall_mem_cons.1 h.label
    exact ⟨hfirst, fun link hlink => hrest link.2 (List.mem_map_of_mem hlink)⟩
  · rintro ⟨hfirst, hrest⟩
    exact ⟨by simp [ofLinks], List.forall_mem_cons.2 ⟨hfirst, List.forall_mem_map.2 hrest⟩⟩

/-- A chain with the right number of arrows is given by its links. -/
theorem Chain.exists_eq_ofLinks {chain : Chain}
    (h : chain.elements.length = chain.arrows.length + 1) :
    ∃ first links, chain = Chain.ofLinks first links := by
  obtain ⟨elements, arrows⟩ := chain
  cases elements with
  | nil => simp at h
  | cons first rest =>
    have hrest : rest.length = arrows.length := by simpa using h
    refine ⟨first, arrows.zip rest, ?_⟩
    rw [Chain.ofLinks, List.map_snd_zip (by omega), List.map_fst_zip (by omega)]

/-- A chain is read as its first element and the links behind it. -/
theorem Chain.read_eq_ok_iff_exists {line : Line} {chain : Chain} :
    Chain.read line = .ok chain ↔
      ∃ first stop links, Element.read line 0 = .ok (first, stop) ∧
        Chain.readLinks line stop = .ok links ∧ chain = Chain.ofLinks first links := by
  have hread : Chain.read line = do
      let (first, stop) ← Element.read line 0
      let links ← Chain.readLinks line stop
      return Chain.ofLinks first links := by
    rw [Chain.read]
    cases Element.read line 0 with
    | error e => rfl
    | ok found =>
      cases hlinks : Chain.readLinks line found.2 <;>
        simp only [hlinks, bind, Except.bind, pure, Except.pure, Chain.ofLinks]
  rw [hread]
  refine ⟨fun h => ?_, ?_⟩
  · obtain ⟨⟨first, stop⟩, hfirst, h⟩ := bind_eq_ok_iff.1 h
    obtain ⟨links, hlinks, h⟩ := bind_eq_ok_iff.1 h
    exact ⟨first, stop, links, hfirst, hlinks, (Except.ok.inj h).symm⟩
  · rintro ⟨first, stop, links, hfirst, hlinks, rfl⟩
    exact bind_eq_ok_iff.2 ⟨(first, stop), hfirst, bind_eq_ok_iff.2 ⟨links, hlinks, rfl⟩⟩

/-- **A chain is read exactly as it is spelled.** -/
theorem Chain.read_eq_ok_iff {line : Line} {chain : Chain} :
    Chain.read line = .ok chain ↔ chain.Writable ∧ Spelled chain.tokens line := by
  rw [Chain.read_eq_ok_iff_exists, ← List.drop_zero (l := line)]
  constructor
  · rintro ⟨first, stop, links, hfirst, hlinks, rfl⟩
    obtain ⟨hlabel, hstands⟩ := Element.read_eq_ok_iff.1 hfirst
    obtain ⟨hlabels, hspelled⟩ := Chain.readLinks_eq_ok_iff.1 hlinks
    refine ⟨Chain.writable_ofLinks_iff.2 ⟨hlabel, hlabels⟩, ?_⟩
    rw [Chain.tokens_ofLinks, Element.spelled_append_drop_iff hlabel]
    exact ⟨stop, hstands, hspelled⟩
  · rintro ⟨hchain, hspelled⟩
    obtain ⟨first, links, rfl⟩ := Chain.exists_eq_ofLinks hchain.length_elements
    obtain ⟨hlabel, hlabels⟩ := Chain.writable_ofLinks_iff.1 hchain
    rw [Chain.tokens_ofLinks] at hspelled
    obtain ⟨stop, hstands, hspelled⟩ := (Element.spelled_append_drop_iff hlabel).1 hspelled
    exact ⟨first, stop, links, Element.read_eq_ok_iff.2 ⟨hlabel, hstands⟩,
      Chain.readLinks_eq_ok_iff.2 ⟨hlabels, hspelled⟩, rfl⟩

/-! ## Declarations -/

/-- A declaration is read where its three tokens stand, if nothing but blanks is left. -/
theorem Declaration.read_eq_ok_iff_exists {line : Line} {declaration : Declaration} :
    Declaration.read line = .ok declaration ↔
      declaration.Writable ∧ ∃ nameEnd valueStart stop,
        line.Stands 0 declaration.name.toList nameEnd ∧
          line.Stands nameEnd [':', '='] valueStart ∧
            line.Stands valueStart (Line.quoted declaration.value) stop ∧
              Blanks (line.drop stop) := by
  simp only [Declaration.read]
  refine ⟨fun h => ?_, ?_⟩
  · split at h
    · simp at h
    · split at h
      · simp at h
      · rename_i hname
        split at h
        · simp at h
        · rename_i hassign
          split at h
          · simp at h
          · rename_i value valueEnd hvalue
            split at h
            · simp at h
            · rename_i hne
              split at h
              · simp at h
              · rename_i hstop
                obtain rfl := Except.ok.inj h
                obtain ⟨hstands, hletters, -⟩ :=
                  (Line.readLetters_eq_iff (by simpa using hname)).1 (Prod.eta _).symm
                obtain ⟨hquoted, hquotable⟩ := Line.readString_eq_ok_iff.1 hvalue
                rw [Line.stands_blankEnd_iff] at hstands hquoted
                refine ⟨⟨hletters, by simpa using hne, hquotable⟩, _, _, valueEnd, hstands,
                  Line.stands_pair_iff.2 ⟨not_not.1 hassign, rfl⟩, hquoted, ?_⟩
                exact Line.length_le_blankEnd_iff.1 (Nat.not_lt.1 hstop)
  · rintro ⟨hdeclaration, nameEnd, valueStart, stop, hname, hassign, hvalue, hrest⟩
    obtain ⟨c, rest, htoken, -⟩ := hdeclaration.name.exists_cons
    have hmore : ¬line.length ≤ line.blankEnd 0 := by
      rw [htoken] at hname
      exact Nat.not_le.2 hname.blankEnd_lt
    have hletters : line.readLetters (line.blankEnd 0) = (declaration.name, nameEnd) := by
      refine (Line.readLetters_eq_iff hdeclaration.name.1).2 ⟨?_, hdeclaration.name, ?_⟩
      · rwa [Line.stands_blankEnd_iff]
      · exact hassign.endsName (by decide)
    have hstring : line.readString (line.blankEnd valueStart) = .ok (declaration.value, stop) := by
      refine Line.readString_eq_ok_iff.2 ⟨?_, hdeclaration.value⟩
      rwa [Line.stands_blankEnd_iff]
    obtain ⟨htake, rfl⟩ := Line.stands_pair_iff.1 hassign
    have hname_ne : ¬declaration.name.isEmpty := by simpa using hdeclaration.name.1
    have hvalue_ne : ¬declaration.value.isEmpty := by simpa using hdeclaration.value_ne_empty
    have hover := Nat.not_lt.2 (Line.length_le_blankEnd_iff.2 hrest)
    simp only [if_neg hmore, hletters, if_neg hname_ne, htake, ne_eq, not_true_eq_false, if_false,
      hstring, if_neg hvalue_ne, if_neg hover]

/-- **A declaration is read exactly as it is spelled.** -/
theorem Declaration.read_eq_ok_iff {line : Line} {declaration : Declaration} :
    Declaration.read line = .ok declaration ↔
      declaration.Writable ∧ Spelled declaration.tokens line := by
  rw [Declaration.read_eq_ok_iff_exists]
  refine and_congr_right fun hdeclaration => ?_
  obtain ⟨c, rest, htoken, hc⟩ := hdeclaration.name.exists_cons
  have hblank := Line.not_isBlank_of_isAlpha hc
  have hspelled : Spelled declaration.tokens line ↔
      Spelled declaration.tokens (line.drop 0) := by rw [List.drop_zero]
  rw [hspelled, Declaration.tokens, htoken, Line.quoted]
  refine ⟨?_, fun hspelled => ?_⟩
  · rintro ⟨nameEnd, valueStart, stop, hname, hassign, hvalue, hrest⟩
    refine (spelled_cons_drop_iff hblank).2 ⟨nameEnd, hname, ?_⟩
    refine (spelled_cons_drop_iff (by decide)).2 ⟨valueStart, hassign, ?_⟩
    exact (spelled_cons_drop_iff (by decide)).2 ⟨stop, hvalue, .done hrest⟩
  · obtain ⟨nameEnd, hname, hspelled⟩ := (spelled_cons_drop_iff hblank).1 hspelled
    obtain ⟨valueStart, hassign, hspelled⟩ := (spelled_cons_drop_iff (by decide)).1 hspelled
    obtain ⟨stop, hvalue, hspelled⟩ := (spelled_cons_drop_iff (by decide)).1 hspelled
    exact ⟨nameEnd, valueStart, stop, hname, hassign, hvalue, spelled_nil_iff.1 hspelled⟩

/-! ## Statements -/

/-- A declaration begins with a letter, and a chain with a bracket. -/
theorem Declaration.read_ne_ok_of_chain {line : Line} {chain : Chain}
    (h : Chain.read line = .ok chain) (declaration : Declaration) :
    Declaration.read line ≠ .ok declaration := by
  intro h'
  obtain ⟨first, stop, links, hfirst, -, -⟩ := Chain.read_eq_ok_iff_exists.1 h
  obtain ⟨-, start, after, hopen, -, -⟩ := Element.read_eq_ok_iff.1 hfirst
  obtain ⟨hdeclaration, nameEnd, valueStart, stop', hname, -⟩ :=
    Declaration.read_eq_ok_iff_exists.1 h'
  obtain ⟨c, rest, htoken, hc⟩ := hdeclaration.name.exists_cons
  rw [htoken] at hname
  obtain rfl := hname.head_eq hopen
  exact Line.not_isAlpha_opener first.enclosure hc

theorem Statement.read_eq_declaration_iff {line : Line} {d : Declaration} :
    Statement.read line = .ok (.declaration d) ↔ Declaration.read line = .ok d := by
  rw [Statement.read, firstOrFurthest_eq_ok_iff]
  cases Declaration.read line <;> cases Chain.read line <;> simp [Except.map]

/-- **A line that is a chain is read as one**, since it is no declaration. -/
theorem Statement.read_eq_chain_iff {line : Line} {c : Chain} :
    Statement.read line = .ok (.chain c) ↔ Chain.read line = .ok c := by
  rw [Statement.read, firstOrFurthest_eq_ok_iff]
  refine ⟨?_, fun h => ?_⟩
  · rintro (h | ⟨-, h⟩)
    · cases hread : Declaration.read line <;> simp [hread, Except.map] at h
    · cases hread : Chain.read line <;> simp [hread, Except.map] at h
      rw [h]
  · refine .inr ⟨?_, by rw [h]; rfl⟩
    cases hread : Declaration.read line with
    | error e => exact fun b hb => nomatch hb
    | ok d => exact absurd hread (Declaration.read_ne_ok_of_chain h d)

/-! ## Tokens -/

/-- The tokens that statements are made of. -/
inductive IsToken : Line → Prop
  | opener (enclosure : Enclosure) : IsToken [enclosure.opener]
  | closer (enclosure : Enclosure) : IsToken [enclosure.closer]
  | quoted {text : String} (htext : Line.Quotable text) : IsToken (Line.quoted text)
  | name {name : String} (hname : Line.IsName name) : IsToken name.toList
  | arrow (arrow : Arrow) : IsToken arrow.symbol.toList
  | assign : IsToken [':', '=']

theorem Element.isToken {element : Element} (h : element.label.Writable) :
    ∀ token ∈ element.tokens, IsToken token := by
  obtain ⟨enclosure, label⟩ := element
  have hlabel : IsToken label.token := by
    cases label with
    | literal text => exact .quoted h
    | reference name => exact .name h
  simpa [Element.tokens] using ⟨.opener enclosure, hlabel, .closer enclosure⟩

theorem Chain.Writable.isToken {chain : Chain} (h : chain.Writable) :
    ∀ token ∈ chain.tokens, IsToken token := by
  obtain ⟨first, links, rfl⟩ := Chain.exists_eq_ofLinks h.length_elements
  obtain ⟨hfirst, hlinks⟩ := Chain.writable_ofLinks_iff.1 h
  rw [Chain.tokens_ofLinks]
  refine List.forall_mem_append.2 ⟨Element.isToken hfirst, fun token htoken => ?_⟩
  obtain ⟨⟨arrow, element⟩, hlink, htoken⟩ := List.mem_flatMap.1 htoken
  rcases List.mem_cons.1 htoken with rfl | htoken
  · exact .arrow arrow
  · exact Element.isToken (hlinks _ hlink) token htoken

theorem Declaration.Writable.isToken {declaration : Declaration} (h : declaration.Writable) :
    ∀ token ∈ declaration.tokens, IsToken token := by
  simpa [Declaration.tokens] using ⟨.name h.name, .assign, .quoted h.value⟩

/-! ## Reading and writing -/

/-- **The readers of statements are exact.** A line is read as a chain or as a declaration exactly
if it is spelled by the tokens of that statement, and the statement can be written. So whatever
blanks are put around its tokens, a statement is read back; a chain has one arrow less than it has
elements; and no line is both a chain and a declaration. -/
theorem statement_readers_exact :
    (∀ line chain, Chain.read line = .ok chain ↔ chain.Writable ∧ Spelled chain.tokens line) ∧
    (∀ line declaration, Declaration.read line = .ok declaration ↔
      declaration.Writable ∧ Spelled declaration.tokens line) ∧
    (∀ chain gaps, chain.Writable → (∀ gap ∈ gaps, Blanks gap) →
      Chain.read (layOut gaps chain.tokens) = .ok chain) ∧
    (∀ declaration gaps, declaration.Writable → (∀ gap ∈ gaps, Blanks gap) →
      Declaration.read (layOut gaps declaration.tokens) = .ok declaration) ∧
    (∀ line chain, Chain.read line = .ok chain →
      chain.arrows.length + 1 = chain.elements.length) ∧
    ∀ line chain declaration,
      ¬(Chain.read line = .ok chain ∧ Declaration.read line = .ok declaration) := by
  refine ⟨fun _ _ => Chain.read_eq_ok_iff, fun _ _ => Declaration.read_eq_ok_iff,
    fun chain gaps hchain hgaps => ?_, fun declaration gaps hdeclaration hgaps => ?_,
    fun line chain h => ?_, fun line chain declaration h => ?_⟩
  · exact Chain.read_eq_ok_iff.2 ⟨hchain, spelled_layOut hgaps⟩
  · exact Declaration.read_eq_ok_iff.2 ⟨hdeclaration, spelled_layOut hgaps⟩
  · exact (Chain.read_eq_ok_iff.1 h).1.length_elements.symm
  · exact Declaration.read_ne_ok_of_chain h.1 declaration h.2

/-- The chain `/a/<-("")` with some blanks: a slash opens and closes, an arrow begins like an
opener, and the literal is empty. -/
theorem statement_readers_exact_slashes :
    ∃ chain gaps, Chain.Writable chain ∧ (∀ gap ∈ gaps, Blanks gap) ∧
      layOut gaps chain.tokens = "/ a/<-\t(\"\")".toList ∧
      Chain.read (layOut gaps chain.tokens) = .ok chain := by
  let chain : Chain :=
    ⟨[⟨.parallelogram, .reference "a"⟩, ⟨.roundedRectangle, .literal ""⟩], [.backward]⟩
  let gaps : List Line := [[], [' '], [], [], ['\t']]
  have hchain : chain.Writable := by
    refine ⟨rfl, ?_⟩
    simp [chain, Label.Writable, Line.IsName, Line.Quotable]
  have hgaps : ∀ gap ∈ gaps, Blanks gap := by
    simp [gaps, Blanks, isBlank]
  exact ⟨chain, gaps, hchain, hgaps, by rfl,
    statement_readers_exact.2.2.1 chain gaps hchain hgaps⟩

end ChainDiagram
