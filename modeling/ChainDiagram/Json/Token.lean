import ChainDiagram.Json

/-!
# Tokens of JSON

A JSON text is a sequence of tokens with blanks between them. This file holds the tokens, how each
is written (`Token.text`), and how a text is cut into them (`tokenize`). A number is written as a
`Numeral` behind its sign, and read as one.

Strings are decoded in two steps. The first undoes the backslashes and yields characters and
16-bit units (`Piece`), and the second joins units that form a surrogate pair (`joinPieces`); a
unit that is half of a pair and stands alone makes the string unreadable, but not ill formed.
-/

set_option autoImplicit false

namespace ChainDiagram.Json

/-- A token. A string without text is one that denotes none. -/
inductive Token where
  | openArray
  | closeArray
  | openObject
  | closeObject
  | colon
  | comma
  | null
  | bool (value : Bool)
  | number (value : Number)
  | string (text : Option String)
  deriving DecidableEq, Repr

/-! ## Writing -/

/-- The digits of a hexadecimal number below sixteen. -/
def hexDigit (n : Nat) : Char := Nat.digitChar n

/-- How a character stands in a string: the quote, the backslash and the control characters below
the space are escaped, and all others stand for themselves. -/
def escapeChar (c : Char) : List Char :=
  if c = '"' then ['\\', '"']
  else if c = '\\' then ['\\', '\\']
  else if c = '\x08' then ['\\', 'b']
  else if c = '\t' then ['\\', 't']
  else if c = '\n' then ['\\', 'n']
  else if c = '\x0c' then ['\\', 'f']
  else if c = '\r' then ['\\', 'r']
  else if c.toNat < 32 then ['\\', 'u', '0', '0', hexDigit (c.toNat / 16), hexDigit (c.toNat % 16)]
  else [c]

/-- Where the decimal point of a number is put. -/
structure DecimalLayout where
  /-- The least power of ten whose digit may come first in positional notation. -/
  leastExponent : Int
  /-- The greatest such power. -/
  greatestExponent : Int

/-- Positional notation reaches from millionths to trillions. -/
def decimalLayout : DecimalLayout := ⟨-6, 12⟩

/-- A number as it is written, but for its sign: the digits in front of the point, those behind it,
and the exponent. Without digits behind it there is no point. -/
structure Numeral where
  whole : List Char
  fraction : List Char
  exponent? : Option Int
  deriving DecidableEq, Repr

/-- The digits behind the point, with the point. -/
def fractionText : List Char → List Char
  | [] => []
  | digit :: digits => '.' :: digit :: digits

/-- The exponent, which always has a sign. -/
def exponentText : Option Int → List Char
  | none => []
  | some exponent => 'e' :: (if exponent < 0 then '-' else '+') :: Nat.toDigits 10 exponent.natAbs

/-- A numeral as it is written. -/
def Numeral.text (numeral : Numeral) : List Char :=
  numeral.whole ++ (fractionText numeral.fraction ++ exponentText numeral.exponent?)

/-- A decimal in positional notation, always with a fraction, or with one digit in front of the
point and an exponent if the number is too small or too large. -/
def Numeral.ofDecimal (layout : DecimalLayout) (d : Decimal) : Numeral :=
  if d.mantissa = 0 then ⟨['0'], ['0'], none⟩
  else
    let written := Nat.toDigits 10 d.mantissa
    let digits := (written.reverse.dropWhile (· = '0')).reverse
    let first : Int := d.exponent + written.length - 1
    if first < layout.leastExponent ∨ layout.greatestExponent < first then
      ⟨digits.take 1, digits.drop 1, some first⟩
    else if first < 0 then ⟨['0'], List.replicate (first.natAbs - 1) '0' ++ digits, none⟩
    else
      let whole := first.toNat + 1
      let fraction := digits.drop whole
      ⟨digits.take whole ++ List.replicate (whole - digits.length) '0',
        if fraction.isEmpty then ['0'] else fraction, none⟩

/-- Whether a number is written with a minus. -/
def Number.negative : Number → Bool
  | integer negative _ => negative
  | decimal value => value.negative

/-- The numeral of a number. -/
def Number.numeral : Number → Numeral
  | integer _ magnitude => ⟨Nat.toDigits 10 magnitude, [], none⟩
  | decimal value => .ofDecimal decimalLayout value

/-- A number as it is written. -/
def Number.text (number : Number) : List Char :=
  (if number.negative then ['-'] else []) ++ number.numeral.text

/-- A token as it is written. A string that denotes no text is shown as half of a surrogate
pair. -/
def Token.text : Token → List Char
  | openArray => ['[']
  | closeArray => [']']
  | openObject => ['\x7b']
  | closeObject => ['\x7d']
  | colon => [':']
  | comma => [',']
  | null => "null".toList
  | bool true => "true".toList
  | bool false => "false".toList
  | number value => value.text
  | string (some text) => '"' :: text.toList.flatMap escapeChar ++ ['"']
  | string none => '"' :: "\\ud800".toList ++ ['"']

/-! ## Reading -/

/-- The value of a hexadecimal digit of either case. -/
def hexValue? (c : Char) : Option Nat :=
  if '0' ≤ c ∧ c ≤ '9' then some (c.toNat - 48)
  else if 'a' ≤ c ∧ c ≤ 'f' then some (c.toNat - 87)
  else if 'A' ≤ c ∧ c ≤ 'F' then some (c.toNat - 55)
  else none

/-- The value of a run of hexadecimal digits. -/
def hexNumber? (digits : List Char) : Option Nat :=
  digits.foldlM (fun n c => (hexValue? c).map (16 * n + ·)) 0

/-- What the character behind a backslash stands for, if it stands for one character. -/
def escaped? (c : Char) : Option Char :=
  if c = '"' then some '"'
  else if c = '\\' then some '\\'
  else if c = '/' then some '/'
  else if c = 'b' then some '\x08'
  else if c = 'f' then some '\x0c'
  else if c = 'n' then some '\n'
  else if c = 'r' then some '\r'
  else if c = 't' then some '\t'
  else none

/-- A part of a string: a character, or the 16-bit unit that an escape gives by number. -/
inductive Piece where
  | char (c : Char)
  | unit (n : Nat)
  deriving DecidableEq, Repr

/-- Reads the pieces of a string up to its closing quote, and what follows the quote. A control
character has to be escaped. -/
def scanPieces : List Char → Option (List Piece × List Char)
  | [] => none
  | '"' :: rest => some ([], rest)
  | '\\' :: 'u' :: a :: b :: c :: d :: rest => do
    let n ← hexNumber? [a, b, c, d]
    let (pieces, rest) ← scanPieces rest
    return (.unit n :: pieces, rest)
  | '\\' :: c :: rest => do
    let c ← escaped? c
    let (pieces, rest) ← scanPieces rest
    return (.char c :: pieces, rest)
  | c :: rest =>
    if c.toNat < 32 then none
    else do
      let (pieces, rest) ← scanPieces rest
      return (.char c :: pieces, rest)

/-- A unit that must be followed by the second half of a pair. -/
def isHighSurrogate (n : Nat) : Bool := 0xD800 ≤ n && n < 0xDC00

/-- A unit that is the second half of a pair. -/
def isLowSurrogate (n : Nat) : Bool := 0xDC00 ≤ n && n < 0xE000

/-- The characters that a sequence of pieces denotes, if every half of a surrogate pair stands
beside its other half. -/
def joinPieces : List Piece → Option (List Char)
  | [] => some []
  | .char c :: rest => (joinPieces rest).map (c :: ·)
  | .unit high :: .unit low :: rest =>
    if isHighSurrogate high then
      if isLowSurrogate low then
        let c := Char.ofNat (0x10000 + (high - 0xD800) * 0x400 + (low - 0xDC00))
        (joinPieces rest).map (c :: ·)
      else none
    else if isLowSurrogate high then none
    else (joinPieces (.unit low :: rest)).map (Char.ofNat high :: ·)
  | .unit n :: rest =>
    if isHighSurrogate n || isLowSurrogate n then none
    else (joinPieces rest).map (Char.ofNat n :: ·)

/-- Reads a string from behind its opening quote. -/
def scanString (text : List Char) : Option (Token × List Char) :=
  (scanPieces text).map fun (pieces, rest) =>
    (.string ((joinPieces pieces).map String.ofList), rest)

/-- Reads a run of at least one digit. -/
def scanDigits (text : List Char) : Option (List Char × List Char) :=
  match text.takeWhile Char.isDigit with
  | [] => none
  | digits => some (digits, text.dropWhile Char.isDigit)

/-- Reads the fraction of a number, if there is one: a point and at least one digit. -/
def scanFraction : List Char → Option (List Char × List Char)
  | '.' :: rest => scanDigits rest
  | text => some ([], text)

/-- Reads a sign, if there is one, and answers whether it is a minus. -/
def scanSign : List Char → Bool × List Char
  | '-' :: rest => (true, rest)
  | '+' :: rest => (false, rest)
  | text => (false, text)

/-- Reads the exponent of a number, if there is one: a letter, perhaps a sign, and at least one
digit. -/
def scanExponent : List Char → Option (Option Int × List Char)
  | [] => some (none, [])
  | c :: rest =>
    if c = 'e' ∨ c = 'E' then
      (scanDigits (scanSign rest).2).map fun (digits, stop) =>
        let n : Int := Decimal.ofDigits digits
        (some (if (scanSign rest).1 then -n else n), stop)
    else some (none, c :: rest)

/-- The number that a numeral denotes. Without fraction and exponent it is an integer. -/
def Numeral.toNumber (negative : Bool) (numeral : Numeral) : Number :=
  match numeral.fraction, numeral.exponent? with
  | [], none => .integer negative (Decimal.ofDigits numeral.whole)
  | fraction, exponent? =>
    .decimal ⟨negative, Decimal.ofDigits (numeral.whole ++ fraction),
      exponent?.getD 0 - fraction.length⟩

/-- Reads a number from behind its sign. Only a lone zero may start with one. -/
def scanNumber (negative : Bool) (text : List Char) : Option (Token × List Char) := do
  let (whole, rest) ← scanDigits text
  if 1 < whole.length ∧ whole.head? = some '0' then none
  else
    let (fraction, rest) ← scanFraction rest
    let (exponent, rest) ← scanExponent rest
    return (.number (Numeral.toNumber negative ⟨whole, fraction, exponent⟩), rest)

/-- What follows a word, if the text starts with it. -/
def afterWord? (word text : List Char) : Option (List Char) :=
  if text.take word.length = word then some (text.drop word.length) else none

/-- Reads the token at the start of a text. -/
def scanToken : List Char → Option (Token × List Char)
  | '[' :: rest => some (.openArray, rest)
  | ']' :: rest => some (.closeArray, rest)
  | '\x7b' :: rest => some (.openObject, rest)
  | '\x7d' :: rest => some (.closeObject, rest)
  | ':' :: rest => some (.colon, rest)
  | ',' :: rest => some (.comma, rest)
  | '"' :: rest => scanString rest
  | '-' :: rest => scanNumber true rest
  | 'n' :: rest => (afterWord? "ull".toList rest).map (.null, ·)
  | 't' :: rest => (afterWord? "rue".toList rest).map (.bool true, ·)
  | 'f' :: rest => (afterWord? "alse".toList rest).map (.bool false, ·)
  | text => scanNumber false text

/-! ## A token takes up room -/

theorem scanPieces_le {text rest : List Char} {pieces : List Piece}
    (h : scanPieces text = some (pieces, rest)) : rest.length ≤ text.length := by
  fun_induction scanPieces text generalizing pieces rest with
  | case1 => simp at h
  | case2 => simp_all
  | case3 a b c d tail ih =>
    simp only [bind, Option.bind_eq_some_iff, pure, Option.some.injEq, Prod.mk.injEq] at h
    obtain ⟨n, -, ⟨pieces', rest'⟩, htail, -, rfl⟩ := h
    have := ih htail
    simp only [List.length_cons]
    omega
  | case4 c tail _ ih =>
    simp only [bind, Option.bind_eq_some_iff, pure, Option.some.injEq, Prod.mk.injEq] at h
    obtain ⟨c', -, ⟨pieces', rest'⟩, htail, -, rfl⟩ := h
    have := ih htail
    simp only [List.length_cons]
    omega
  | case5 => simp at h
  | case6 c tail _ _ _ _ ih =>
    simp only [bind, Option.bind_eq_some_iff, pure, Option.some.injEq, Prod.mk.injEq] at h
    obtain ⟨⟨pieces', rest'⟩, htail, -, rfl⟩ := h
    have := ih htail
    simp only [List.length_cons]
    omega

theorem scanDigits_lt {text digits rest : List Char}
    (h : scanDigits text = some (digits, rest)) : rest.length < text.length := by
  unfold scanDigits at h
  split at h
  · simp at h
  · rename_i hdigits
    simp only [Option.some.injEq, Prod.mk.injEq] at h
    have hsplit := congrArg List.length
      (List.takeWhile_append_dropWhile (p := Char.isDigit) (l := text))
    have hpos := List.length_pos_iff.2 hdigits
    rw [List.length_append] at hsplit
    rw [← h.2]
    omega

theorem scanFraction_le {text fraction rest : List Char}
    (h : scanFraction text = some (fraction, rest)) : rest.length ≤ text.length := by
  unfold scanFraction at h
  split at h
  · have := scanDigits_lt h
    rw [List.length_cons]
    omega
  · cases h
    exact Nat.le_refl _

theorem scanSign_le (text : List Char) : (scanSign text).2.length ≤ text.length := by
  unfold scanSign
  split <;> simp

theorem scanExponent_le {text rest : List Char} {exponent : Option Int}
    (h : scanExponent text = some (exponent, rest)) : rest.length ≤ text.length := by
  unfold scanExponent at h
  split at h
  · cases h
    exact Nat.le_refl _
  · rename_i c tail
    split at h
    · simp only [Option.map_eq_some_iff, Prod.mk.injEq, Prod.exists] at h
      obtain ⟨digits, stop, hdigits, -, rfl⟩ := h
      have := scanDigits_lt hdigits
      have := scanSign_le tail
      rw [List.length_cons]
      omega
    · cases h
      exact Nat.le_refl _

theorem scanNumber_lt {negative : Bool} {text rest : List Char} {token : Token}
    (h : scanNumber negative text = some (token, rest)) : rest.length < text.length := by
  simp only [scanNumber, bind, Option.bind_eq_some_iff, Prod.exists] at h
  obtain ⟨whole, rest₁, hwhole, h⟩ := h
  split at h
  · simp at h
  · simp only [Option.bind_eq_some_iff, Prod.exists, pure, Option.some.injEq,
      Prod.mk.injEq] at h
    obtain ⟨fraction, rest₂, hfraction, exponent, rest₃, hexponent, -, rfl⟩ := h
    have := scanDigits_lt hwhole
    have := scanFraction_le hfraction
    have := scanExponent_le hexponent
    omega

theorem afterWord?_le {word text rest : List Char} (h : afterWord? word text = some rest) :
    rest.length ≤ text.length := by
  unfold afterWord? at h
  split at h <;> cases h
  simp

/-- What is left behind a token is shorter than the text. -/
theorem scanToken_lt {text rest : List Char} {token : Token}
    (h : scanToken text = some (token, rest)) : rest.length < text.length := by
  have hword {word tail : List Char} {t : Token}
      (hmap : (afterWord? word tail).map (t, ·) = some (token, rest)) :
      rest.length ≤ tail.length := by
    simp only [Option.map_eq_some_iff, Prod.mk.injEq] at hmap
    obtain ⟨_, hafter, -, rfl⟩ := hmap
    exact afterWord?_le hafter
  unfold scanToken at h
  split at h
  case h_7 tail =>
    simp only [scanString, Option.map_eq_some_iff, Prod.mk.injEq, Prod.exists] at h
    obtain ⟨pieces, stop, h, -, rfl⟩ := h
    exact Nat.lt_succ_of_le (scanPieces_le h)
  case h_8 => exact Nat.lt_succ_of_lt (scanNumber_lt h)
  case h_9 => exact Nat.lt_succ_of_le (hword h)
  case h_10 => exact Nat.lt_succ_of_le (hword h)
  case h_11 => exact Nat.lt_succ_of_le (hword h)
  case h_12 => exact scanNumber_lt h
  all_goals
    cases h
    simp

/-! ## Cutting a text into tokens -/

/-- Blanks that may stand between tokens. -/
def isSpace (c : Char) : Bool := c = ' ' || c = '\t' || c = '\n' || c = '\r'

/-- The tokens of a text, if it consists of tokens and blanks. -/
def tokenize : List Char → Option (List Token)
  | [] => some []
  | c :: rest =>
    if isSpace c then tokenize rest
    else
      match _h : scanToken (c :: rest) with
      | none => none
      | some (token, rest') => (tokenize rest').map (token :: ·)
termination_by text => text.length
decreasing_by
  · simp
  · exact scanToken_lt _h

end ChainDiagram.Json
