import ChainDiagram.Proofs.Comment

/-!
# What is quoted

Two parts of the reader decide what stands between quotes. Taking the comment away goes by parity: a
`#` is quoted if an odd number of quotes stands in front of it. The readers of statements know of no
parity: they meet a string where the grammar has one, and read it up to the next quote. In a
statement the two agree, since each of its tokens closes the quotes that it opens.

## What is here

* `Line.Shielded`: a text in which every `#` is quoted, by parity.
* `Line.shielded_withoutComment`, `Line.isPrefix_withoutComment`: without its comment, a line is the
  longest part from its start on that is shielded.
* `quotes_are_read_alike`: no `#` of a statement begins a comment, and a `#` behind one does.
-/

set_option autoImplicit false

namespace ChainDiagram

namespace Line

/-- Every `#` in a text stands behind an odd number of quotes. -/
def Shielded (text : Line) : Prop :=
  ∀ front back, text = front ++ '#' :: back → Odd (front.count '"')

/-- Whether a `#` is quoted depends on what stands in front of it. -/
theorem shielded_iff_noneBad {text : Line} :
    Shielded text ↔ NoneBad (fun front c => c = '#' ∧ ¬Odd (front.count '"')) text := by
  constructor
  · rintro h front c back heq ⟨rfl, hodd⟩
    exact hodd (h front back heq)
  · exact fun h front back heq => not_not.1 fun hodd => h front '#' back heq ⟨rfl, hodd⟩

theorem shielded_nil : Shielded [] := shielded_iff_noneBad.2 noneBad_nil

/-- Only the last character of a text matters for whether that text is shielded too. -/
theorem shielded_concat_iff {text : Line} {c : Char} :
    Shielded (text ++ [c]) ↔ Shielded text ∧ (c = '#' → Odd (text.count '"')) := by
  rw [shielded_iff_noneBad, noneBad_concat_iff, ← shielded_iff_noneBad, not_and, not_not]

/-- Whether a quote is open behind a text is known one character further on. -/
theorem odd_count_concat_iff {text : Line} {quoted : Bool} (c : Char)
    (h : Odd (text.count '"') ↔ quoted = true) :
    Odd ((text ++ [c]).count '"') ↔ (if c = '"' then !quoted else quoted) = true := by
  by_cases hc : c = '"'
  · rw [hc, List.count_append, List.count_singleton_self, Nat.odd_add_one, h]
    simp
  · rw [List.count_append, List.count_singleton, if_neg (by simpa using hc), Nat.add_zero, h,
      if_neg hc]

section Uncommented

variable {before : Line} {quoted : Bool}

/-- **What is left of a line is shielded.** The induction is on the line, and what has been kept of
it goes over to `before`. -/
theorem Shielded.append_uncommented (h : Shielded before)
    (hquoted : Odd (before.count '"') ↔ quoted = true) (line : Line) :
    Shielded (before ++ uncommented quoted line) := by
  induction line generalizing before quoted with
  | nil =>
    rw [uncommented, List.append_nil]
    exact h
  | cons c rest ih =>
    rw [uncommented]
    split
    · rw [List.append_nil]
      exact h
    · rename_i hkeep
      have hc : c = '#' → Odd (before.count '"') := fun heq => by
        rw [hquoted]
        by_contra hnot
        exact hkeep ⟨heq, by simpa using hnot⟩
      rw [List.append_cons]
      exact ih (shielded_concat_iff.2 ⟨h, hc⟩) (odd_count_concat_iff c hquoted)

/-- **Nothing that is shielded is taken away.** -/
theorem isPrefix_uncommented (hquoted : Odd (before.count '"') ↔ quoted = true) {line part : Line}
    (hpart : part <+: line) (h : Shielded (before ++ part)) : part <+: uncommented quoted line := by
  induction line generalizing before quoted part with
  | nil => exact hpart
  | cons c rest ih =>
    cases part with
    | nil => exact List.nil_prefix
    | cons d part =>
      obtain ⟨rfl, hrest⟩ := List.cons_prefix_cons.1 hpart
      have hkeep : ¬(d = '#' ∧ quoted = false) := by
        rintro ⟨rfl, hfalse⟩
        have htrue := hquoted.1 (h before part rfl)
        rw [hfalse] at htrue
        cases htrue
      rw [List.append_cons] at h
      rw [uncommented, if_neg hkeep, List.cons_prefix_cons]
      exact ⟨rfl, ih (odd_count_concat_iff d hquoted) hrest h⟩

end Uncommented

/-! ## Lines without their comments -/

theorem withoutComment_isPrefix (line : Line) : line.withoutComment <+: line :=
  exists_uncommented_append false line

theorem shielded_withoutComment (line : Line) : line.withoutComment.Shielded :=
  shielded_nil.append_uncommented (by simp) line

theorem isPrefix_withoutComment {line part : Line} (hpart : part <+: line) (h : part.Shielded) :
    part <+: line.withoutComment := by
  rw [← List.nil_append part] at h
  exact isPrefix_uncommented (by simp) hpart h

/-- From what is shielded nothing is taken away. -/
theorem Shielded.withoutComment_eq {line : Line} (h : line.Shielded) : line.withoutComment = line :=
  (withoutComment_isPrefix line).eq_of_length_le
    (isPrefix_withoutComment (List.prefix_refl line) h).length_le

end Line

/-- A statement has no comment in it, so a comment behind it is taken away as it is. -/
theorem Statement.withoutComment_append_of_read {line : Line} {statement : Statement}
    (h : Statement.read line = .ok statement) (comment : Line) :
    Line.withoutComment (line ++ '#' :: comment) = line := by
  obtain ⟨hstatement, hspelled⟩ := Statement.read_eq_ok_iff.1 h
  rw [Line.withoutComment, hspelled.uncommented_append hstatement.isToken, Line.uncommented,
    if_pos ⟨rfl, rfl⟩, List.append_nil]

/-- **Comments and statements agree on what is quoted.** From a line that is a statement nothing is
taken away, whatever its strings hold, and from a line that is a statement with a comment behind it
just that comment. From any line, what is left is the longest part from its start on in which every
`#` stands behind an odd number of quotes; from that nothing more is taken away. -/
theorem quotes_are_read_alike :
    (∀ line statement, Statement.read line = .ok statement → line.withoutComment = line ∧
      ∀ comment, Line.withoutComment (line ++ '#' :: comment) = line) ∧
    ∀ line : Line,
      (line.withoutComment <+: line ∧ line.withoutComment.Shielded ∧
        ∀ part : Line, part <+: line → part.Shielded → part.length ≤ line.withoutComment.length) ∧
      line.withoutComment.withoutComment = line.withoutComment := by
  refine ⟨fun line statement h => ⟨Statement.withoutComment_of_read h,
    Statement.withoutComment_append_of_read h⟩, fun line => ⟨⟨line.withoutComment_isPrefix,
      line.shielded_withoutComment, fun part hpart h => ?_⟩,
        line.shielded_withoutComment.withoutComment_eq⟩⟩
  exact (Line.isPrefix_withoutComment hpart h).length_le

/-- The value of the variable holds a `#`, and so does a string in a line that is no statement. -/
theorem quotes_are_read_alike_hash :
    Statement.read "tag := \"#4\"".toList = .ok (.declaration ⟨"tag", "#4"⟩) ∧
      Line.withoutComment "tag := \"#4\"".toList = "tag := \"#4\"".toList ∧
      Line.withoutComment ("tag := \"#4\"".toList ++ '#' :: " note \"".toList) =
        "tag := \"#4\"".toList ∧
      ['"', '#'] <+: "\"#\" # ]".toList ∧ Line.Shielded ['"', '#'] ∧
      2 ≤ (Line.withoutComment "\"#\" # ]".toList).length := by
  have hread : Statement.read "tag := \"#4\"".toList = .ok (.declaration ⟨"tag", "#4"⟩) := by cbv
  obtain ⟨hself, hcomment⟩ := quotes_are_read_alike.1 _ _ hread
  have hpart : ['"', '#'] <+: "\"#\" # ]".toList := ⟨"\" # ]".toList, rfl⟩
  have hquote : Line.Shielded ['"'] :=
    Line.shielded_concat_iff.2 ⟨Line.shielded_nil, fun h => absurd h (by decide)⟩
  have hshielded : Line.Shielded ['"', '#'] :=
    Line.shielded_concat_iff.2 ⟨hquote, fun _ => by decide⟩
  exact ⟨hread, hself, hcomment _, hpart, hshielded,
    (quotes_are_read_alike.2 _).1.2.2 _ hpart hshielded⟩

end ChainDiagram
