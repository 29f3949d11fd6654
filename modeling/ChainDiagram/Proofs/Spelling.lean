import Mathlib.Data.List.TakeWhile
import ChainDiagram.Line.Token

/-!
# How a line is spelled

The readers of `ChainDiagram.Line.Token` go through a line by positions. What a line looks like is
said without positions: it consists of tokens, one after the other, with any blanks in front of
each and behind the last. This file ties the two together.

## What is here

* `Spelled tokens line`: the line consists of the tokens, and `layOut gaps tokens` is the line that
  puts the given gaps around them. A line is spelled by tokens exactly if it is laid out so
  (`spelled_iff_exists_layOut`).
* `Line.Stands line pos token stop`: the first thing behind the blanks at `pos` is the token, and it
  ends at `stop`. On it the readers are described: `Line.readLetters_eq_iff`,
  `Line.readString_eq_ok_iff`, `Line.readBracketed_eq_ok_iff`.
* `spelled_cons_drop_iff`: the bridge, one token at a time.
-/

set_option autoImplicit false

namespace ChainDiagram

/-! ## Lines made of tokens -/

/-- A text of blanks only. -/
def Blanks (gap : Line) : Prop := ∀ c ∈ gap, isBlank c

theorem blanks_nil : Blanks [] := List.forall_mem_nil _

/-- The line consists of the tokens, with blanks in front of each and behind the last. -/
inductive Spelled : List Line → Line → Prop
  | done {gap : Line} (hgap : Blanks gap) : Spelled [] gap
  | token {gap token rest : Line} {tokens : List Line} (hgap : Blanks gap)
      (hrest : Spelled tokens rest) : Spelled (token :: tokens) (gap ++ (token ++ rest))

/-- The tokens with the given gaps in front of them and behind the last. Where there are not enough
gaps, the tokens touch. -/
def layOut : List Line → List Line → Line
  | gaps, [] => gaps.headD []
  | gaps, token :: tokens => gaps.headD [] ++ (token ++ layOut gaps.tail tokens)

theorem blanks_headD {gaps : List Line} (h : ∀ gap ∈ gaps, Blanks gap) :
    Blanks (gaps.headD []) := by
  cases gaps with
  | nil => exact blanks_nil
  | cons gap gaps => exact h gap List.mem_cons_self

/-- **Whatever the gaps are, the line is spelled by its tokens.** -/
theorem spelled_layOut {gaps tokens : List Line} (h : ∀ gap ∈ gaps, Blanks gap) :
    Spelled tokens (layOut gaps tokens) := by
  induction tokens generalizing gaps with
  | nil => exact .done (blanks_headD h)
  | cons token tokens ih =>
    exact .token (blanks_headD h) (ih fun gap hgap => h gap (List.mem_of_mem_tail hgap))

/-- A spelled line is the tokens with some gaps. -/
theorem spelled_iff_exists_layOut {tokens : List Line} {line : Line} :
    Spelled tokens line ↔ ∃ gaps, (∀ gap ∈ gaps, Blanks gap) ∧ layOut gaps tokens = line := by
  refine ⟨fun h => ?_, ?_⟩
  · induction h with
    | @done gap hgap => exact ⟨[gap], by simpa using hgap, rfl⟩
    | @token gap token rest tokens hgap _ ih =>
      obtain ⟨gaps, hgaps, rfl⟩ := ih
      exact ⟨gap :: gaps, List.forall_mem_cons.2 ⟨hgap, hgaps⟩, rfl⟩
  · rintro ⟨gaps, hgaps, rfl⟩
    exact spelled_layOut hgaps

namespace Line

/-! ## Runs of characters -/

/-- A run ends in front of the first character that does not belong to it. -/
theorem takeWhile_append_of_head? {p : Char → Bool} {run rest : Line} (hrun : ∀ c ∈ run, p c)
    (hrest : ∀ c ∈ rest.head?, ¬p c) : (run ++ rest).takeWhile p = run := by
  rw [List.takeWhile_append_of_pos hrun]
  cases rest with
  | nil => rw [List.takeWhile_nil, List.append_nil]
  | cons c rest => rw [List.takeWhile_cons_of_neg (hrest c rfl), List.append_nil]

theorem drop_length_takeWhile (p : Char → Bool) (text : Line) :
    text.drop (text.takeWhile p).length = text.dropWhile p := by
  have hsplit := List.takeWhile_append_dropWhile (p := p) (l := text)
  calc text.drop (text.takeWhile p).length
      = (text.takeWhile p ++ text.dropWhile p).drop (text.takeWhile p).length := by rw [hsplit]
    _ = text.dropWhile p := List.drop_left

/-- Behind a run comes no character that belongs to it. -/
theorem not_of_mem_head?_dropWhile {p : Char → Bool} {text : Line} {c : Char}
    (h : c ∈ (text.dropWhile p).head?) : ¬p c := by
  have hnot := List.head?_dropWhile_not p text
  rw [Option.mem_def.1 h] at hnot
  simpa using hnot

/-! ## The end of the blanks -/

theorem drop_blankEnd (line : Line) (pos : Nat) :
    line.drop (line.blankEnd pos) = (line.drop pos).dropWhile isBlank := by
  rw [blankEnd, ← List.drop_drop, drop_length_takeWhile]

/-- Only blanks are skipped. -/
theorem exists_blanks_append (line : Line) (pos : Nat) :
    ∃ gap, Blanks gap ∧ line.drop pos = gap ++ line.drop (line.blankEnd pos) := by
  refine ⟨(line.drop pos).takeWhile isBlank, fun c hc => List.mem_takeWhile_imp hc, ?_⟩
  rw [drop_blankEnd, List.takeWhile_append_dropWhile]

/-- All blanks are skipped. -/
theorem not_isBlank_of_drop_blankEnd {line rest : Line} {pos : Nat} {c : Char}
    (h : line.drop (line.blankEnd pos) = c :: rest) : ¬isBlank c := by
  rw [drop_blankEnd] at h
  have hhead : c ∈ ((line.drop pos).dropWhile isBlank).head? := by
    rw [h]
    rfl
  exact not_of_mem_head?_dropWhile hhead

/-- Blanks end in front of what is no blank. -/
theorem drop_blankEnd_of_blanks {line gap rest : Line} {pos : Nat} {c : Char} (hgap : Blanks gap)
    (hc : ¬isBlank c) (h : line.drop pos = gap ++ c :: rest) :
    line.drop (line.blankEnd pos) = c :: rest := by
  rw [drop_blankEnd, h, List.dropWhile_append_of_pos hgap, List.dropWhile_cons_of_neg hc]

theorem blankEnd_blankEnd (line : Line) (pos : Nat) :
    line.blankEnd (line.blankEnd pos) = line.blankEnd pos := by
  have h : (line.drop (line.blankEnd pos)).takeWhile isBlank = [] := by
    cases hdrop : line.drop (line.blankEnd pos) with
    | nil => rfl
    | cons c rest => exact List.takeWhile_cons_of_neg (not_isBlank_of_drop_blankEnd hdrop)
  show line.blankEnd pos + ((line.drop (line.blankEnd pos)).takeWhile isBlank).length = _
  rw [h]
  rfl

/-- Nothing but blanks is left exactly if the end of the blanks is the end of the line. -/
theorem length_le_blankEnd_iff {line : Line} {pos : Nat} :
    line.length ≤ line.blankEnd pos ↔ Blanks (line.drop pos) := by
  rw [← List.drop_eq_nil_iff, drop_blankEnd, List.dropWhile_eq_nil_iff]
  rfl

/-! ## Tokens at positions -/

/-- The first thing behind the blanks at `pos` is the token, and it ends at `stop`. -/
def Stands (line : Line) (pos : Nat) (token : Line) (stop : Nat) : Prop :=
  token <+: line.drop (line.blankEnd pos) ∧ stop = line.blankEnd pos + token.length

theorem Stands.drop_eq {line token : Line} {pos stop : Nat} (h : line.Stands pos token stop) :
    line.drop (line.blankEnd pos) = token ++ line.drop stop := by
  obtain ⟨⟨rest, hrest⟩, rfl⟩ := h
  rw [← List.drop_drop, ← hrest, List.drop_left]

theorem stands_of_drop_eq {line token rest : Line} {pos : Nat}
    (h : line.drop (line.blankEnd pos) = token ++ rest) :
    line.Stands pos token (line.blankEnd pos + token.length) :=
  ⟨⟨rest, h.symm⟩, rfl⟩

@[simp] theorem stands_blankEnd_iff {line token : Line} {pos stop : Nat} :
    line.Stands (line.blankEnd pos) token stop ↔ line.Stands pos token stop := by
  rw [Stands, Stands, blankEnd_blankEnd]

/-- One thing at a time stands at a position. -/
theorem Stands.head_eq {line s t : Line} {pos stop stop' : Nat} {c d : Char}
    (h : line.Stands pos (c :: s) stop) (h' : line.Stands pos (d :: t) stop') : c = d := by
  have heq := h.drop_eq.symm.trans h'.drop_eq
  exact (List.cons.inj heq).1

/-- Where a token stands, the line is not over. -/
theorem Stands.blankEnd_lt {line s : Line} {pos stop : Nat} {c : Char}
    (h : line.Stands pos (c :: s) stop) : line.blankEnd pos < line.length := by
  rw [← Nat.not_le, ← List.drop_eq_nil_iff, h.drop_eq]
  exact List.cons_ne_nil _ _

/-- A character stands at a position exactly if it comes next. -/
theorem stands_singleton_iff {line : Line} {pos stop : Nat} {c : Char} :
    line.Stands pos [c] stop ↔
      (line.drop (line.blankEnd pos)).head? = some c ∧ stop = line.blankEnd pos + 1 := by
  rw [Stands, List.length_singleton]
  refine and_congr_left fun _ => ?_
  cases line.drop (line.blankEnd pos) with
  | nil => simp
  | cons d rest => simp [eq_comm]

/-- Two characters are compared with the next two of the line. -/
theorem stands_pair_iff {line : Line} {pos stop : Nat} {c d : Char} :
    line.Stands pos [c, d] stop ↔
      (line.drop (line.blankEnd pos)).take 2 = [c, d] ∧ stop = line.blankEnd pos + 2 := by
  rw [Stands, List.prefix_iff_eq_take, eq_comm (a := [c, d])]
  rfl

end Line

/-- **A spelled line begins with its first token.** The token must not begin with a blank itself. -/
theorem spelled_cons_drop_iff {line token : Line} {tokens : List Line} {pos : Nat} {c : Char}
    (hc : ¬isBlank c) :
    Spelled ((c :: token) :: tokens) (line.drop pos) ↔
      ∃ stop, line.Stands pos (c :: token) stop ∧ Spelled tokens (line.drop stop) := by
  refine ⟨fun h => ?_, ?_⟩
  · generalize hline : line.drop pos = text at h
    cases h with
    | @token gap _ rest _ hgap hrest =>
      have hdrop := Line.drop_blankEnd_of_blanks hgap hc hline
      have hstands : line.Stands pos (c :: token) _ := Line.stands_of_drop_eq hdrop
      refine ⟨_, hstands, ?_⟩
      rwa [List.append_cancel_left (hstands.drop_eq.symm.trans hdrop)]
  · rintro ⟨stop, hstands, hrest⟩
    obtain ⟨gap, hgap, hdrop⟩ := line.exists_blanks_append pos
    rw [hdrop, hstands.drop_eq]
    exact .token hgap hrest

theorem spelled_nil_iff {line : Line} : Spelled [] line ↔ Blanks line :=
  ⟨fun h => by cases h; assumption, .done⟩

namespace Line

/-! ## Names -/

/-- A name: one letter or more. -/
def IsName (name : String) : Prop := name ≠ "" ∧ ∀ c ∈ name.toList, c.isAlpha

theorem IsName.exists_cons {name : String} (h : IsName name) :
    ∃ c rest, name.toList = c :: rest ∧ c.isAlpha := by
  obtain ⟨c, rest, hname⟩ := List.exists_cons_of_ne_nil
    (fun hnil => h.1 (String.toList_eq_nil_iff.1 hnil) : name.toList ≠ [])
  exact ⟨c, rest, hname, h.2 c (hname ▸ List.mem_cons_self)⟩

theorem not_isBlank_of_isAlpha {c : Char} (h : c.isAlpha) : ¬isBlank c := by
  intro hc
  simp only [isBlank, Bool.or_eq_true, decide_eq_true_eq] at hc
  rcases hc with rfl | rfl <;> exact absurd h (by decide)

/-- The line does not go on with a letter at `stop`. -/
def EndsName (line : Line) (stop : Nat) : Prop := ∀ c ∈ (line.drop stop).head?, ¬c.isAlpha

/-- **A run of letters is read as far as it goes.** -/
theorem readLetters_eq_iff {line : Line} {pos stop : Nat} {name : String} (hname : name ≠ "") :
    line.readLetters pos = (name, stop) ↔
      line.Stands pos name.toList stop ∧ IsName name ∧ line.EndsName stop := by
  simp only [readLetters]
  refine ⟨fun h => ?_, ?_⟩
  · split at h
    · exact absurd (Prod.mk.inj h).1.symm hname
    · obtain ⟨rfl, rfl⟩ := Prod.mk.inj h
      rw [IsName, EndsName, String.toList_ofList, ← List.drop_drop, drop_length_takeWhile]
      refine ⟨stands_of_drop_eq (List.takeWhile_append_dropWhile).symm, ⟨hname, ?_⟩, ?_⟩
      · exact fun c hc => List.mem_takeWhile_imp hc
      · exact fun c hc => not_of_mem_head?_dropWhile hc
  · rintro ⟨hstands, hletters, hend⟩
    have htake : (line.drop (line.blankEnd pos)).takeWhile Char.isAlpha = name.toList := by
      rw [hstands.drop_eq]
      exact takeWhile_append_of_head? hletters.2 hend
    have hne : ¬name.toList.isEmpty := by simpa using hname
    rw [htake, if_neg hne, String.ofList_toList, hstands.2]

theorem readName_eq_ok_iff {line : Line} {pos stop : Nat} {name : String} :
    line.readName pos = .ok (name, stop) ↔
      line.Stands pos name.toList stop ∧ IsName name ∧ line.EndsName stop := by
  rw [readName]
  refine ⟨fun h => ?_, fun h => ?_⟩
  · cases hread : line.readLetters pos with
    | mk found after =>
      simp only [hread] at h
      by_cases hne : found.isEmpty
      · simp [hne] at h
      · rw [if_neg hne] at h
        obtain ⟨rfl, rfl⟩ := Prod.mk.inj (Except.ok.inj h)
        exact (readLetters_eq_iff (by simpa using hne)).1 hread
  · have hne : ¬name.isEmpty := by simpa using h.2.1.1
    simp only [(readLetters_eq_iff h.2.1.1).2 h, if_neg hne]

/-! ## Strings -/

/-- A text between quotes. -/
def quoted (text : String) : Line := '"' :: (text.toList ++ ['"'])

theorem length_quoted (text : String) : (quoted text).length = text.toList.length + 2 := by
  rw [quoted, List.length_cons, List.length_append, List.length_singleton]

/-- A text that can be written between quotes. -/
def Quotable (text : String) : Prop := '"' ∉ text.toList

/-- The quote that ends a string is the next one. -/
theorem takeWhile_quote_of_quotable {text : String} (h : Quotable text) (rest : Line) :
    (text.toList ++ '"' :: rest).takeWhile (· ≠ '"') = text.toList := by
  refine takeWhile_append_of_head? (fun c hc => ?_) (fun c hc => ?_)
  · exact decide_eq_true fun heq => h (heq ▸ hc)
  · rw [← Option.mem_some.1 hc]
    decide

/-- What is left behind a text without quotes, if anything, begins with a quote. -/
theorem exists_quote_of_length_lt {body : Line}
    (h : (body.takeWhile (· ≠ '"')).length < body.length) :
    ∃ rest, body = body.takeWhile (· ≠ '"') ++ '"' :: rest := by
  have hsplit := List.takeWhile_append_dropWhile (p := (· ≠ '"')) (l := body)
  cases hrest : body.dropWhile (· ≠ '"') with
  | nil =>
    rw [hrest, List.append_nil] at hsplit
    exact absurd h (by rw [hsplit]; exact Nat.lt_irrefl _)
  | cons c rest =>
    have hc := List.head?_dropWhile_not (· ≠ '"') body
    rw [hrest] at hc hsplit
    obtain rfl : c = '"' := by simpa using hc
    exact ⟨rest, hsplit.symm⟩

/-- **A string is read from its opening quote to the next one.** -/
theorem readString_eq_ok_iff {line : Line} {pos stop : Nat} {text : String} :
    line.readString pos = .ok (text, stop) ↔
      line.Stands pos (quoted text) stop ∧ Quotable text := by
  simp only [readString]
  refine ⟨fun h => ?_, ?_⟩
  · split at h
    · rename_i body hdrop
      split at h
      · rename_i hlt
        obtain ⟨rfl, rfl⟩ := Prod.mk.inj (Except.ok.inj h)
        obtain ⟨rest, hrest⟩ := exists_quote_of_length_lt hlt
        refine ⟨⟨⟨rest, ?_⟩, ?_⟩, ?_⟩
        · rw [hdrop, quoted, String.toList_ofList, List.cons_append, List.append_assoc,
            List.singleton_append, ← hrest]
        · rw [length_quoted, String.toList_ofList, Nat.add_assoc]
        · rw [Quotable, String.toList_ofList]
          intro hmem
          simpa using List.mem_takeWhile_imp hmem
      · simp at h
    · simp at h
  · rintro ⟨hstands, htext⟩
    have hdrop := hstands.drop_eq
    have htake := takeWhile_quote_of_quotable htext (line.drop stop)
    rw [quoted, List.cons_append, List.append_assoc, List.singleton_append] at hdrop
    have hlt : text.toList.length < (text.toList ++ '"' :: line.drop stop).length := by
      rw [List.length_append, List.length_cons]
      omega
    simp only [hdrop, htake, if_pos hlt, String.ofList_toList]
    rw [hstands.2, length_quoted, Nat.add_assoc]

/-! ## Brackets -/

theorem not_isBlank_opener (e : Enclosure) : ¬isBlank e.opener := by cases e <;> decide

theorem not_isBlank_closer (e : Enclosure) : ¬isBlank e.closer := by cases e <;> decide

theorem not_isAlpha_opener (e : Enclosure) : ¬e.opener.isAlpha := by cases e <;> decide

theorem not_isAlpha_closer (e : Enclosure) : ¬e.closer.isAlpha := by cases e <;> decide

/-- **A bracketed item is an opener, the item, and the closer of the same enclosure.** -/
theorem readBracketed_eq_ok_iff {inner : Line → Nat → Parsed String} {line : Line}
    {pos stop : Nat} {text : String} {enclosure : Enclosure} :
    readBracketed inner line pos = .ok ((text, enclosure), stop) ↔
      ∃ start after, line.Stands pos [enclosure.opener] start ∧
        inner line start = .ok (text, after) ∧ line.Stands after [enclosure.closer] stop := by
  simp only [readBracketed]
  refine ⟨fun h => ?_, ?_⟩
  · split at h
    · simp at h
    · rename_i found hopen
      split at h
      · simp at h
      · rename_i text' after hinner
        split at h
        · rename_i hclose
          obtain ⟨hitem, rfl⟩ := Prod.mk.inj (Except.ok.inj h)
          obtain ⟨rfl, rfl⟩ := Prod.mk.inj hitem
          obtain ⟨c, hc, hfound⟩ := Option.bind_eq_some_iff.1 hopen
          rw [Enclosure.ofOpener?_eq_some_iff] at hfound
          exact ⟨_, after, stands_singleton_iff.2 ⟨hfound ▸ hc, rfl⟩, hinner,
            stands_singleton_iff.2 ⟨hclose, rfl⟩⟩
        · simp at h
  · rintro ⟨start, after, hopen, hinner, hclose⟩
    obtain ⟨hopener, rfl⟩ := stands_singleton_iff.1 hopen
    obtain ⟨hcloser, rfl⟩ := stands_singleton_iff.1 hclose
    simp only [hopener, Option.bind_some, Enclosure.ofOpener?_opener, hinner, hcloser, if_true]

end Line

end ChainDiagram
