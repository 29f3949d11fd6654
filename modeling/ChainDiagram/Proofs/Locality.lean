import ChainDiagram.Proofs.Spelling

/-!
# Readers keep to the line

A reader of `ChainDiagram.Line.Token` may start at any position, also behind the end of the line.
It looks only at what comes from there on: from position `pos` it answers what it would answer on
the rest of the line from its start, with every position moved by `pos`. So whatever is to be known
about where it stops has to be shown for a start at zero only, and a start behind the end is a start
on the empty line.

The readers of the library take runs of characters. Taken literally, they cut parts out of the line
between positions that they have computed, and such a cut is possible only between two positions of
the line. The second half of this file is about readers that cut: they find every part that they ask
for, and answer the same.

## What is here

* `Answer`: what a reader answers, as far as positions go. `Local`: a reader that looks only at what
  comes from its start on. `Confined`: one that stops neither in front of its start nor behind the
  end of the line.
* `Local.confined`: the step from the first to the second.
* `Line.slice?`: a part of a line, and `Line.sliceLetters?`, `Line.sliceString?`,
  `Line.sliceReference?`, `Line.sliceLiteral?`: the readers that cut.
* `readers_keep_to_the_line`: all readers are confined, and no cut leaves the line.
-/

set_option autoImplicit false

namespace ChainDiagram

/-! ## Answers -/

/-- What can be told of a reader's answer: whether something has been found, the position at which
the reader has stopped, and what the same answer is further to the right. -/
structure Answer (α : Type) where
  Found : α → Prop
  stop : α → Nat
  shift : Nat → α → α
  stop_shift : ∀ n a, stop (shift n a) = n + stop a
  found_shift : ∀ n a, Found (shift n a) ↔ Found a

/-- A position alone: nothing is found there. -/
def Answer.position : Answer Nat where
  Found _ := False
  stop := id
  shift n pos := n + pos
  stop_shift _ _ := rfl
  found_shift _ _ := Iff.rfl

/-- A run of characters, which may be empty, and the position behind it. -/
def Answer.run : Answer (String × Nat) where
  Found run := run.1 ≠ ""
  stop := Prod.snd
  shift n run := (run.1, n + run.2)
  stop_shift _ _ := rfl
  found_shift _ _ := Iff.rfl

/-- The position at which a reader has stopped: behind what it has read, or where it has failed. -/
def Parsed.stop {α : Type} : Parsed α → Nat
  | .ok (_, stop) => stop
  | .error e => e.pos

/-- The same answer further to the right. -/
def Parsed.shift {α : Type} (n : Nat) : Parsed α → Parsed α
  | .ok (a, stop) => .ok (a, n + stop)
  | .error e => .error ⟨e.fault, n + e.pos⟩

/-- Something that has been read, or a failure. -/
def Answer.parsed (α : Type) : Answer (Parsed α) where
  Found found := found.isOk
  stop := Parsed.stop
  shift := Parsed.shift
  stop_shift n found := by cases found <;> rfl
  found_shift n found := by cases found <;> rfl

section Readers

variable {α : Type} (answer : Answer α) (read : Line → Nat → α)

/-- The reader looks only at what comes from its start on. -/
def Local : Prop :=
  ∀ (line : Line) (pos n : Nat), read line (pos + n) = answer.shift pos (read (line.drop pos) n)

/-- The reader keeps to the part of the line from its start on. -/
structure Confined : Prop where
  /-- It does not step back. -/
  le_stop : ∀ (line : Line) (pos : Nat), pos ≤ answer.stop (read line pos)
  /-- It does not step over the end of the line. -/
  stop_le : ∀ (line : Line) (pos : Nat), answer.stop (read line pos) ≤ max pos line.length
  /-- What it finds takes up room. -/
  lt_stop : ∀ (line : Line) (pos : Nat),
    answer.Found (read line pos) → pos < answer.stop (read line pos)
  /-- It answers the same on the rest of the line, where positions count from its start. -/
  read_eq : ∀ (line : Line) (pos : Nat),
    read line pos = answer.shift pos (read (line.drop pos) 0)
  /-- Behind the end of the line it finds nothing and stays where it is. -/
  past : ∀ (line : Line) (pos : Nat), line.length < pos →
    ¬answer.Found (read line pos) ∧ answer.stop (read line pos) = pos

variable {answer read}

/-- **A local reader is confined if it is when it starts at the beginning of a line.** -/
theorem Local.confined (h : Local answer read)
    (hstop : ∀ line : Line, answer.stop (read line 0) ≤ line.length)
    (hfound : ∀ line : Line, answer.Found (read line 0) → 0 < answer.stop (read line 0)) :
    Confined answer read := by
  have hread : ∀ (line : Line) (pos : Nat),
      read line pos = answer.shift pos (read (line.drop pos) 0) := fun line pos => h line pos 0
  have heq : ∀ (line : Line) (pos : Nat),
      answer.stop (read line pos) = pos + answer.stop (read (line.drop pos) 0) :=
    fun line pos => by rw [hread, answer.stop_shift]
  have hle : ∀ (line : Line) (pos : Nat),
      answer.stop (read (line.drop pos) 0) ≤ line.length - pos :=
    fun line pos => (hstop (line.drop pos)).trans_eq List.length_drop
  have hlt : ∀ (line : Line) (pos : Nat),
      answer.Found (read line pos) → 0 < answer.stop (read (line.drop pos) 0) := by
    intro line pos hmem
    rw [hread, answer.found_shift] at hmem
    exact hfound _ hmem
  refine ⟨fun line pos => ?_, fun line pos => ?_, fun line pos hmem => ?_, hread,
    fun line pos hpast => ?_⟩
  · rw [heq]
    exact Nat.le_add_right _ _
  · have := hle line pos
    rw [heq]
    omega
  · have := hlt line pos hmem
    rw [heq]
    omega
  · have := hle line pos
    refine ⟨fun hmem => ?_, ?_⟩
    · have := hlt line pos hmem
      omega
    · rw [heq]
      omega

end Readers

namespace Line

/-! ## The readers are local -/

theorem blankEnd_add (line : Line) (pos n : Nat) :
    line.blankEnd (pos + n) = pos + blankEnd (line.drop pos) n := by
  rw [blankEnd, blankEnd, List.drop_drop, Nat.add_assoc]

theorem blankEnd_le (line : Line) (pos : Nat) : line.blankEnd pos ≤ max pos line.length := by
  have hle := (List.takeWhile_sublist (l := line.drop pos) isBlank).length_le
  rw [List.length_drop] at hle
  rw [blankEnd]
  omega

theorem local_blankEnd : Local .position blankEnd := blankEnd_add

theorem confined_blankEnd : Confined .position blankEnd := by
  refine local_blankEnd.confined (fun line => ?_) nofun
  exact (line.blankEnd_le 0).trans_eq (Nat.zero_max _)

theorem local_readLetters : Local .run readLetters := by
  intro line pos n
  simp only [readLetters, blankEnd_add, ← List.drop_drop, Answer.run]
  generalize ((line.drop pos).drop (blankEnd (line.drop pos) n)).takeWhile Char.isAlpha = letters
  cases letters with
  | nil => rfl
  | cons c letters => simp [Nat.add_assoc]

theorem readLetters_le (line : Line) (pos : Nat) :
    (line.readLetters pos).2 ≤ max pos line.length := by
  have hle := (List.takeWhile_sublist (l := line.drop (line.blankEnd pos)) Char.isAlpha).length_le
  have hstart := line.blankEnd_le pos
  rw [List.length_drop] at hle
  simp only [readLetters]
  split
  · exact Nat.le_max_left _ _
  · show line.blankEnd pos + _ ≤ _
    omega

theorem lt_readLetters {line : Line} {pos : Nat} (h : (line.readLetters pos).1 ≠ "") :
    pos < (line.readLetters pos).2 := by
  have heq : line.readLetters pos = ((line.readLetters pos).1, (line.readLetters pos).2) := rfl
  obtain ⟨⟨-, hstop⟩, hname, -⟩ := (readLetters_eq_iff h).1 heq
  obtain ⟨c, rest, hcons, -⟩ := hname.exists_cons
  have hstart := line.le_blankEnd pos
  rw [hcons, List.length_cons] at hstop
  omega

theorem confined_readLetters : Confined .run readLetters :=
  local_readLetters.confined (fun line => (line.readLetters_le 0).trans_eq (Nat.zero_max _))
    fun _ => lt_readLetters

theorem local_readName : Local (.parsed String) readName := by
  intro line pos n
  simp only [readName, local_readLetters line pos n, blankEnd_add, Answer.run]
  cases readLetters (line.drop pos) n with
  | mk name stop =>
    dsimp only
    split <;> rfl

/-- What is answered for a name ends in the line, whether there is one or not. -/
theorem stop_readName_le (line : Line) (pos : Nat) :
    (line.readName pos).stop ≤ max pos line.length := by
  have hletters := line.readLetters_le pos
  simp only [readName]
  split
  · exact line.blankEnd_le pos
  · exact hletters

theorem local_readString : Local (.parsed String) readString := by
  intro line pos n
  have hdrop : line.drop (line.blankEnd (pos + n)) =
      (line.drop pos).drop (blankEnd (line.drop pos) n) := by
    rw [blankEnd_add, List.drop_drop]
  by_cases hquote : ((line.drop pos).drop (blankEnd (line.drop pos) n)).head? = some '"'
  · obtain ⟨body, hbody⟩ := List.head?_eq_some_iff.1 hquote
    rw [readString_of_quote (hdrop.trans hbody), readString_of_quote hbody, blankEnd_add]
    split
    · simp only [Answer.parsed, Parsed.shift, Nat.add_assoc]
    · rfl
  · rw [readString_of_not_quote (hdrop ▸ hquote), readString_of_not_quote hquote, blankEnd_add]
    rfl

theorem stop_readString_le (line : Line) (pos : Nat) :
    (line.readString pos).stop ≤ max pos line.length := by
  have hstart := line.blankEnd_le pos
  by_cases hquote : (line.drop (line.blankEnd pos)).head? = some '"'
  · obtain ⟨body, hbody⟩ := List.head?_eq_some_iff.1 hquote
    have hlength := congrArg List.length hbody
    rw [List.length_drop, List.length_cons] at hlength
    rw [readString_of_quote hbody]
    split
    · show line.blankEnd pos + _ + 2 ≤ _
      omega
    · exact hstart
  · rw [readString_of_not_quote hquote]
    exact hstart

section Brackets

variable {inner : Line → Nat → Parsed String}

/-- What stands between brackets is read locally if what is inside is. -/
theorem local_readBracketed (hinner : Local (.parsed String) inner) :
    Local (.parsed (String × Enclosure)) (readBracketed inner) := by
  intro line pos n
  simp only [readBracketed, blankEnd_add, ← List.drop_drop]
  cases ((line.drop pos).drop (blankEnd (line.drop pos) n)).head?.bind Enclosure.ofOpener? with
  | none => rfl
  | some enclosure =>
    simp only [Nat.add_assoc, hinner line pos]
    cases inner (line.drop pos) (blankEnd (line.drop pos) n + 1) with
    | error e => rfl
    | ok found =>
      obtain ⟨text, after⟩ := found
      simp only [Answer.parsed, Parsed.shift, blankEnd_add, ← List.drop_drop]
      split <;> rfl

theorem lt_length_of_head? {line : Line} {pos : Nat} {c : Char}
    (h : (line.drop pos).head? = some c) : pos < line.length := by
  rw [List.head?_drop] at h
  exact (List.getElem?_eq_some_iff.1 h).1

theorem stop_readBracketed_le
    (hinner : ∀ (line : Line) (pos : Nat), (inner line pos).stop ≤ max pos line.length)
    (line : Line) (pos : Nat) : (readBracketed inner line pos).stop ≤ max pos line.length := by
  simp only [readBracketed]
  split
  · exact line.blankEnd_le pos
  · rename_i enclosure hopener
    obtain ⟨c, hc, -⟩ := Option.bind_eq_some_iff.1 hopener
    have hstart := lt_length_of_head? hc
    have hstop := hinner line (line.blankEnd pos + 1)
    split
    · rename_i e he
      rw [he] at hstop
      show e.pos ≤ _
      have : e.pos ≤ _ := hstop
      omega
    · rename_i text after hafter
      rw [hafter] at hstop
      have hclose := line.blankEnd_le after
      have : after ≤ _ := hstop
      split
      · rename_i hcloser
        have := lt_length_of_head? hcloser
        show line.blankEnd after + 1 ≤ _
        omega
      · show line.blankEnd after ≤ _
        omega

end Brackets

theorem confined_of_parsed {α : Type} {read : Line → Nat → Parsed α}
    (h : Local (.parsed α) read)
    (hle : ∀ (line : Line) (pos : Nat), (read line pos).stop ≤ max pos line.length)
    (hlt : ∀ {line : Line} {pos stop : Nat} {item : α},
      read line pos = .ok (item, stop) → pos < stop) : Confined (.parsed α) read := by
  refine h.confined (fun line => (hle line 0).trans_eq (Nat.zero_max _)) fun line hfound => ?_
  cases hread : read line 0 with
  | error e =>
    rw [hread] at hfound
    cases hfound
  | ok found => exact hlt hread

theorem confined_readString : Confined (.parsed String) readString :=
  confined_of_parsed local_readString stop_readString_le lt_of_readString

theorem confined_readReference : Confined (.parsed (String × Enclosure)) readReference :=
  confined_of_parsed (local_readBracketed local_readName) (stop_readBracketed_le stop_readName_le)
    lt_of_readReference

theorem confined_readLiteral : Confined (.parsed (String × Enclosure)) readLiteral :=
  confined_of_parsed (local_readBracketed local_readString)
    (stop_readBracketed_le stop_readString_le) lt_of_readLiteral

/-! ## Readers that cut -/

/-- The part of a line between two positions. It can be cut out only between two positions of the
line, of which the second does not come before the first. -/
def slice? (line : Line) (start stop : Nat) : Option Line :=
  if start ≤ stop ∧ stop ≤ line.length then some ((line.drop start).take (stop - start)) else none

theorem slice?_of_le {line : Line} {start stop : Nat} (hle : start ≤ stop)
    (hstop : stop ≤ line.length) :
    line.slice? start stop = some ((line.drop start).take (stop - start)) :=
  if_pos ⟨hle, hstop⟩

/-- What is left of a line from a position on. -/
theorem slice?_length {line : Line} {start : Nat} (h : start ≤ line.length) :
    line.slice? start line.length = some (line.drop start) := by
  rw [slice?_of_le h le_rfl, ← List.length_drop, List.take_length]

/-- A run of letters, cut out up to the first character that is no letter. -/
def sliceLetters? (line : Line) (pos : Nat) : Option (String × Nat) := do
  let start := line.blankEnd pos
  let rest ← line.slice? (min start line.length) line.length
  let stop := (rest.findIdx? fun c => !c.isAlpha).elim line.length (start + ·)
  if stop ≤ start then
    return ("", pos)
  else
    return (String.ofList (← line.slice? start stop), stop)

/-- A text between quotes, cut out up to the first quote behind the opening one. -/
def sliceString? (line : Line) (pos : Nat) : Option (Parsed String) := do
  let start := line.blankEnd pos
  if (line.drop start).head? = some '"' then
    let body ← line.slice? (start + 1) line.length
    match body.findIdx? (· = '"') with
    | none => return .error ⟨.invalidString, start⟩
    | some offset =>
      let close := start + 1 + offset
      return .ok (String.ofList (← line.slice? (start + 1) close), close + 1)
  else
    return .error ⟨.invalidString, start⟩

/-- A name, by a run of letters that is cut out. -/
def sliceName? (line : Line) (pos : Nat) : Option (Parsed String) := do
  let (name, stop) ← line.sliceLetters? pos
  if name.isEmpty then
    return .error ⟨.expectedVariable, line.blankEnd pos⟩
  else
    return .ok (name, stop)

/-- Brackets around something that may be cut out. -/
def sliceBracketed? (inner : Line → Nat → Option (Parsed String)) (line : Line) (pos : Nat) :
    Option (Parsed (String × Enclosure)) := do
  let start := line.blankEnd pos
  match (line.drop start).head?.bind Enclosure.ofOpener? with
  | none => return .error ⟨.notEnclosed, start⟩
  | some enclosure =>
    match ← inner line (start + 1) with
    | .error e => return .error e
    | .ok (text, after) =>
      let close := line.blankEnd after
      if (line.drop close).head? = some enclosure.closer then
        return .ok ((text, enclosure), close + 1)
      else
        return .error ⟨.invalidEnclosure, close⟩

/-- A run ends at the first character that does not belong to it. -/
theorem findIdx?_not (p : Char → Bool) (text : Line) :
    text.findIdx? (fun c => !p c) =
      if (text.takeWhile p).length < text.length then some (text.takeWhile p).length else none := by
  have hlength : (text.takeWhile p).length = text.findIdx fun c => !p c := by
    rw [List.takeWhile_eq_take_findIdx_not, List.length_take]
    exact Nat.min_eq_left List.findIdx_le_length
  rw [hlength, List.findIdx?_eq_guard_findIdx_lt]
  by_cases h : (text.findIdx fun c => !p c) < text.length <;> simp [Option.guard, h]

/-- The position behind a run, from the place of the first character that does not belong to it. -/
theorem elim_findIdx?_not (p : Char → Bool) (text : Line) (start : Nat) :
    (text.findIdx? fun c => !p c).elim (start + text.length) (start + ·) =
      start + (text.takeWhile p).length := by
  have hle := (List.takeWhile_sublist (l := text) p).length_le
  rw [findIdx?_not]
  split
  · rfl
  · show start + text.length = _
    omega

theorem slice?_min_length (line : Line) (start : Nat) :
    line.slice? (min start line.length) line.length = some (line.drop start) := by
  rw [slice?_length (Nat.min_le_right _ _)]
  rcases Nat.le_total start line.length with h | h
  · rw [Nat.min_eq_left h]
  · rw [Nat.min_eq_right h, List.drop_length, List.drop_eq_nil_of_le h]

/-- The first characters of what is left at a position can be cut out. -/
theorem slice?_of_isPrefix {line part : Line} {pos : Nat} (hpos : pos ≤ line.length)
    (h : part <+: line.drop pos) : line.slice? pos (pos + part.length) = some part := by
  have hlength := h.length_le
  rw [List.length_drop] at hlength
  rw [slice?_of_le (Nat.le_add_right _ _) (by omega), Nat.add_sub_cancel_left,
    ← List.prefix_iff_eq_take.1 h]

/-- **No cut for letters leaves the line.** Behind the blanks there may be nothing left, and then
the run is empty; else it ends in the line. -/
theorem sliceLetters?_eq (line : Line) (pos : Nat) :
    line.sliceLetters? pos = some (line.readLetters pos) := by
  simp only [sliceLetters?, readLetters, slice?_min_length, Option.bind_eq_bind, Option.bind_some,
    Option.pure_def]
  rcases Nat.lt_or_ge line.length (line.blankEnd pos) with hpast | hpos
  · rw [List.drop_eq_nil_of_le (Nat.le_of_lt hpast)]
    exact if_pos (Nat.le_of_lt hpast)
  · have hlength : line.blankEnd pos + (line.drop (line.blankEnd pos)).length = line.length := by
      rw [List.length_drop, Nat.add_sub_cancel' hpos]
    have hstop := elim_findIdx?_not Char.isAlpha (line.drop (line.blankEnd pos)) (line.blankEnd pos)
    rw [hlength] at hstop
    rw [hstop]
    have hpart := List.takeWhile_prefix (l := line.drop (line.blankEnd pos)) Char.isAlpha
    generalize (line.drop (line.blankEnd pos)).takeWhile Char.isAlpha = letters at hpart
    cases letters with
    | nil => exact if_pos le_rfl
    | cons c letters =>
      rw [if_neg (by simp), slice?_of_isPrefix hpos hpart]
      rfl

theorem sliceName?_eq (line : Line) (pos : Nat) :
    line.sliceName? pos = some (line.readName pos) := by
  simp only [sliceName?, sliceLetters?_eq, Option.bind_eq_bind, Option.bind_some, Option.pure_def,
    readName]
  split <;> rfl

/-- **No cut for a text between quotes leaves the line.** Behind the opening quote the line may be
over, but not before. -/
theorem sliceString?_eq (line : Line) (pos : Nat) :
    line.sliceString? pos = some (line.readString pos) := by
  by_cases hquote : (line.drop (line.blankEnd pos)).head? = some '"'
  · obtain ⟨body, hbody⟩ := List.head?_eq_some_iff.1 hquote
    have hlt := lt_length_of_head? hquote
    have hdrop : line.drop (line.blankEnd pos + 1) = body := by
      rw [← List.drop_drop, hbody]
      rfl
    have hpart : body.takeWhile (· ≠ '"') <+: line.drop (line.blankEnd pos + 1) :=
      hdrop ▸ List.takeWhile_prefix _
    have hnot : (fun c : Char => decide (c = '"')) = fun c => !decide (c ≠ '"') := by
      funext c
      simp
    rw [readString_of_quote hbody]
    simp only [sliceString?, if_pos hquote, slice?_length (Nat.succ_le_of_lt hlt), hdrop, hnot,
      findIdx?_not, Option.bind_eq_bind, Option.bind_some, Option.pure_def]
    by_cases hend : (body.takeWhile (· ≠ '"')).length < body.length
    · have hclose : line.blankEnd pos + 1 + (body.takeWhile (· ≠ '"')).length + 1 =
          line.blankEnd pos + (body.takeWhile (· ≠ '"')).length + 2 := by omega
      simp only [if_pos hend, slice?_of_isPrefix (Nat.succ_le_of_lt hlt) hpart, Option.bind_some,
        hclose]
    · simp only [if_neg hend]
  · rw [readString_of_not_quote hquote, sliceString?, if_neg hquote]
    rfl

/-- Brackets are looked for one by one; only what is between them is cut out. -/
theorem sliceBracketed?_eq {inner? : Line → Nat → Option (Parsed String)}
    {inner : Line → Nat → Parsed String}
    (h : ∀ line pos, inner? line pos = some (inner line pos)) (line : Line) (pos : Nat) :
    sliceBracketed? inner? line pos = some (readBracketed inner line pos) := by
  simp only [sliceBracketed?, readBracketed, h, Option.bind_eq_bind, Option.bind_some,
    Option.pure_def]
  cases (line.drop (line.blankEnd pos)).head?.bind Enclosure.ofOpener? with
  | none => rfl
  | some enclosure =>
    dsimp only
    cases inner line (line.blankEnd pos + 1) with
    | error e => rfl
    | ok found =>
      obtain ⟨text, after⟩ := found
      dsimp only
      split <;> rfl

/-- A name between brackets. -/
def sliceReference? (line : Line) (pos : Nat) : Option (Parsed (String × Enclosure)) :=
  sliceBracketed? sliceName? line pos

/-- A text between quotes between brackets. -/
def sliceLiteral? (line : Line) (pos : Nat) : Option (Parsed (String × Enclosure)) :=
  sliceBracketed? sliceString? line pos

end Line

/-- **Every reader keeps to the line, wherever it starts.** It neither steps back nor over the end,
it moves on if it finds something, it answers what it answers on the rest of the line, and behind
the end it stays where it is. The parts of the line that are taken by the way can all be cut out of
it; only blanks and brackets are looked at without a cut. -/
theorem readers_keep_to_the_line :
    (Confined .position Line.blankEnd ∧ Confined .run Line.readLetters ∧
      Confined (.parsed String) Line.readString ∧
      Confined (.parsed (String × Enclosure)) Line.readReference ∧
      Confined (.parsed (String × Enclosure)) Line.readLiteral) ∧
    ∀ (line : Line) (pos : Nat),
      line.sliceLetters? pos = some (line.readLetters pos) ∧
      line.sliceString? pos = some (line.readString pos) ∧
      line.sliceReference? pos = some (line.readReference pos) ∧
      line.sliceLiteral? pos = some (line.readLiteral pos) := by
  refine ⟨⟨Line.confined_blankEnd, Line.confined_readLetters, Line.confined_readString,
    Line.confined_readReference, Line.confined_readLiteral⟩, fun line pos => ?_⟩
  exact ⟨line.sliceLetters?_eq pos, line.sliceString?_eq pos,
    Line.sliceBracketed?_eq Line.sliceName?_eq line pos,
    Line.sliceBracketed?_eq Line.sliceString?_eq line pos⟩

/-- Behind the opening quote the line may be over: what is left to be searched is empty, and the
failure stands at the quote. -/
example : Line.sliceString? [' ', '"'] 0 = some (.error ⟨.invalidString, 1⟩) := by decide

end ChainDiagram
