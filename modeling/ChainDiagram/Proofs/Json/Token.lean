import ChainDiagram.Proofs.Json.Number

/-!
# Tokens of JSON are read back

The token at the start of a text is the one that was written there, whatever follows. Only a number
needs to be told from what follows it, since it has no closing mark, and only a decimal may be read
as another one, of the same value.

A string is read back in the two steps of `ChainDiagram.Json.Token`. Each character is one piece,
and the pieces of a text are joined to that text, because a character that is written by its number
is a control character and no half of a surrogate pair.

## What is here

* `scanString_escaped`: a string is read back.
* `Token.reread`: the token that is read back.
* `tokenize_text_append`: a token is cut off the text behind it.
-/

set_option autoImplicit false

namespace ChainDiagram.Json

/-! ## Strings -/

section Pieces

variable {c : Char} {rest : List Char}

theorem scanPieces_escaped {d : Char} (h : escaped? d = some c) :
    scanPieces ('\\' :: d :: rest) =
      (scanPieces rest).map fun (pieces, rest) => (.char c :: pieces, rest) := by
  have hd : d ≠ 'u' := by
    rintro rfl
    simp [escaped?] at h
  rw [scanPieces, h]
  · cases scanPieces rest <;> rfl
  · exact fun _ _ _ _ _ hu => absurd hu hd

theorem scanPieces_number {a b d e : Char} {n : Nat} (h : hexNumber? [a, b, d, e] = some n) :
    scanPieces ('\\' :: 'u' :: a :: b :: d :: e :: rest) =
      (scanPieces rest).map fun (pieces, rest) => (.unit n :: pieces, rest) := by
  rw [scanPieces, h]
  cases scanPieces rest <;> rfl

theorem scanPieces_plain (hquote : c ≠ '"') (hbackslash : c ≠ '\\') (hcontrol : ¬c.toNat < 32) :
    scanPieces (c :: rest) =
      (scanPieces rest).map fun (pieces, rest) => (.char c :: pieces, rest) := by
  rw [scanPieces, if_neg hcontrol]
  · cases scanPieces rest <;> rfl
  · exact hquote
  · exact fun _ _ _ _ _ h => absurd h hbackslash
  · exact fun _ _ h => absurd h hbackslash

end Pieces

theorem joinPieces_unit {n : Nat} (h : n < 32) (pieces : List Piece) :
    joinPieces (.unit n :: pieces) = (joinPieces pieces).map (Char.ofNat n :: ·) := by
  have hhigh : isHighSurrogate n = false := by
    simp only [isHighSurrogate, Bool.and_eq_false_iff, decide_eq_false_iff_not]
    omega
  have hlow : isLowSurrogate n = false := by
    simp only [isLowSurrogate, Bool.and_eq_false_iff, decide_eq_false_iff_not]
    omega
  cases pieces with
  | nil => simp [joinPieces, hhigh, hlow]
  | cons piece pieces => cases piece <;> simp [joinPieces, hhigh, hlow]

theorem hexNumber?_hexDigit :
    ∀ n < 32, hexNumber? ['0', '0', hexDigit (n / 16), hexDigit (n % 16)] = some n := by
  decide

/-- A character is written as one piece, which denotes it. -/
theorem exists_scanPieces_escapeChar (c : Char) (rest : List Char) :
    ∃ piece, scanPieces (escapeChar c ++ rest) =
        (scanPieces rest).map (fun (pieces, rest) => (piece :: pieces, rest)) ∧
      ∀ pieces, joinPieces (piece :: pieces) = (joinPieces pieces).map (c :: ·) := by
  have hshort : ∀ d, escaped? d = some c →
      ∃ piece, scanPieces (['\\', d] ++ rest) =
          (scanPieces rest).map (fun (pieces, rest) => (piece :: pieces, rest)) ∧
        ∀ pieces, joinPieces (piece :: pieces) = (joinPieces pieces).map (c :: ·) :=
    fun d hd => ⟨.char c, scanPieces_escaped hd, fun _ => rfl⟩
  rw [escapeChar]
  split_ifs with hquote hbackslash h h h h h hcontrol
  · exact hshort '"' (by rw [hquote]; rfl)
  · exact hshort '\\' (by rw [hbackslash]; rfl)
  · exact hshort 'b' (h ▸ rfl)
  · exact hshort 't' (h ▸ rfl)
  · exact hshort 'n' (h ▸ rfl)
  · exact hshort 'f' (h ▸ rfl)
  · exact hshort 'r' (h ▸ rfl)
  · refine ⟨.unit c.toNat, scanPieces_number (hexNumber?_hexDigit _ hcontrol), fun pieces => ?_⟩
    rw [joinPieces_unit hcontrol, Char.ofNat_toNat]
  · exact ⟨.char c, scanPieces_plain hquote hbackslash hcontrol, fun _ => rfl⟩

theorem exists_scanPieces_flatMap (text rest : List Char) :
    ∃ pieces, scanPieces (text.flatMap escapeChar ++ '"' :: rest) = some (pieces, rest) ∧
      joinPieces pieces = some text := by
  induction text with
  | nil => exact ⟨[], by rw [List.flatMap_nil, List.nil_append, scanPieces], rfl⟩
  | cons c text ih =>
    obtain ⟨pieces, hscan, hjoin⟩ := ih
    obtain ⟨piece, hpiece, hdenotes⟩ :=
      exists_scanPieces_escapeChar c (text.flatMap escapeChar ++ '"' :: rest)
    refine ⟨piece :: pieces, ?_, ?_⟩
    · rw [List.flatMap_cons, List.append_assoc, hpiece, hscan, Option.map_some]
    · rw [hdenotes, hjoin, Option.map_some]

/-- **A string is read back**, whatever characters it holds. -/
theorem scanString_escaped (text : String) (rest : List Char) :
    scanString (text.toList.flatMap escapeChar ++ '"' :: rest) =
      some (.string (some text), rest) := by
  obtain ⟨pieces, hscan, hjoin⟩ := exists_scanPieces_flatMap text.toList rest
  simp only [scanString, hscan, hjoin, Option.map_some, String.ofList_toList]

/-- A character that may stand for itself does so, and others are escaped in two ways. -/
example : (Token.string (some "a\"\n\x01é")).text = "\"a\\\"\\n\\u0001é\"".toList := by decide

/-! ## All tokens -/

/-- A token that ends by itself. A number does not. -/
def Token.Closed : Token → Prop
  | .number _ => False
  | _ => True

/-- **The token that is read back.** Only a decimal may be another one. -/
def Token.reread : Token → Token
  | .number value => .number value.reread
  | token => token

theorem Token.Closed.reread_eq {token : Token} (h : token.Closed) : token.reread = token := by
  cases token with
  | number value => cases h
  | _ => rfl

theorem scanToken_of_isDigit {c : Char} (hc : c.isDigit) (rest : List Char) :
    scanToken (c :: rest) = scanNumber false (c :: rest) := by
  unfold scanToken
  split
  case h_12 => rfl
  all_goals
    rename_i heq
    obtain ⟨rfl, -⟩ := List.cons.inj heq
    simp at hc

/-- A number begins with a minus or with a digit. -/
theorem Number.exists_text_eq_cons (value : Number) :
    ∃ c text, value.text = c :: text ∧
      (c = '-' ∧ value.negative ∧ text = value.numeral.text ∨
        c.isDigit ∧ value.negative = false ∧ c :: text = value.numeral.text) := by
  obtain ⟨c, digits, hwhole⟩ := List.exists_cons_of_ne_nil value.wellFormed_numeral.whole_ne_nil
  have hc := value.wellFormed_numeral.isDigit_whole c (hwhole ▸ List.mem_cons_self)
  have htext : value.numeral.text = c :: (digits ++ (fractionText value.numeral.fraction ++
      exponentText value.numeral.exponent?)) := by
    rw [Numeral.text, hwhole, List.cons_append]
  rw [Number.text]
  cases value.negative with
  | true => exact ⟨'-', _, rfl, .inl ⟨rfl, rfl, rfl⟩⟩
  | false => exact ⟨c, _, htext, .inr ⟨hc, rfl, htext.symm⟩⟩

/-- **A token is read back**, whatever it is followed by. -/
theorem scanToken_text_append (token : Token) {rest : List Char}
    (hrest : token.Closed ∨ EndsNumber rest) :
    scanToken (token.text ++ rest) = some (token.reread, rest) := by
  cases token with
  | bool value => cases value <;> rfl
  | number value =>
    have hscan := scanNumber_text_append value.wellFormed_numeral value.negative
      (hrest.resolve_left id)
    obtain ⟨c, text, htext, ⟨rfl, hnegative, rfl⟩ | ⟨hc, hnegative, hnumeral⟩⟩ :=
      value.exists_text_eq_cons
    · rw [hnegative] at hscan
      rw [Token.text, htext, Token.reread, Number.reread, hnegative]
      exact hscan
    · rw [hnegative, ← hnumeral, List.cons_append] at hscan
      rw [Token.text, htext, List.cons_append, scanToken_of_isDigit hc, hscan, Token.reread,
        Number.reread, hnegative]
  | string text =>
    cases text with
    | none => rfl
    | some text =>
      show scanString (text.toList.flatMap escapeChar ++ ['"'] ++ rest) = _
      rw [List.append_assoc]
      exact scanString_escaped text rest
  | _ => rfl

/-- A digit is no space. -/
theorem isSpace_of_isDigit {c : Char} (hc : c.isDigit) : isSpace c = false := by
  by_contra hspace
  simp only [isSpace, Bool.not_eq_false, Bool.or_eq_true, decide_eq_true_eq] at hspace
  rcases hspace with ((rfl | rfl) | rfl) | rfl <;> simp at hc

/-- A token does not begin with a space. -/
theorem Token.exists_text_eq_cons (token : Token) :
    ∃ c text, token.text = c :: text ∧ isSpace c = false := by
  cases token with
  | bool value => cases value <;> exact ⟨_, _, rfl, by decide⟩
  | number value =>
    obtain ⟨c, text, htext, ⟨rfl, -, -⟩ | ⟨hc, -, -⟩⟩ := value.exists_text_eq_cons
    · exact ⟨'-', text, htext, by decide⟩
    · exact ⟨c, text, htext, isSpace_of_isDigit hc⟩
  | string text => cases text <;> exact ⟨'"', _, rfl, by decide⟩
  | _ => exact ⟨_, _, rfl, by decide⟩

/-- **A token is cut off the text behind it.** -/
theorem tokenize_text_append (token : Token) {rest : List Char}
    (hrest : token.Closed ∨ EndsNumber rest) :
    tokenize (token.text ++ rest) = (tokenize rest).map (token.reread :: ·) := by
  have hscan := scanToken_text_append token hrest
  obtain ⟨c, text, htext, hc⟩ := token.exists_text_eq_cons
  rw [htext, List.cons_append] at hscan ⊢
  rw [tokenize, hc, if_neg Bool.false_ne_true]
  split
  · rename_i hnone
    rw [hscan] at hnone
    cases hnone
  · rename_i token' rest' hsome
    rw [hscan] at hsome
    obtain ⟨rfl, rfl⟩ := Prod.mk.inj (Option.some.inj hsome)
    rfl

/-- Spaces between tokens are passed over. -/
theorem tokenize_spaces_append {spaces : List Char} (h : ∀ c ∈ spaces, isSpace c)
    (rest : List Char) : tokenize (spaces ++ rest) = tokenize rest := by
  induction spaces with
  | nil => rfl
  | cons c spaces ih =>
    rw [List.forall_mem_cons] at h
    rw [List.cons_append, tokenize, if_pos h.1, ih h.2]

end ChainDiagram.Json
