import ChainDiagram.Decimal
import ChainDiagram.Toml

/-!
# Numbers, dates and truth values in TOML

All these values are words without blanks, with one exception: a blank may stand between a date and
a time. So a value is cut out as a word, and the word is read as a whole.

## What is here

* `groupedDigits?`: digits with underscores between them.
* `integerOfWord?`, `floatOfWord?`: numbers.
* `isDate`, `isTime`, `isDatetime`: dates and times.
* `scanScalar`: the value at the start of a text.
-/

set_option autoImplicit false

namespace ChainDiagram.Toml

/-! ## Numbers -/

/-- Digits without the underscores between them. Each underscore must stand between two digits. -/
def groupedDigits? (isDigit : Char → Bool) (word : List Char) : Option (List Char) :=
  let groups := word.splitOn '_'
  if groups.all fun group => !group.isEmpty && group.all isDigit then some groups.flatten else none

/-- A sign in front of a word, if there is one: whether it is a minus, and the rest. -/
def splitSign : List Char → Bool × List Char
  | '-' :: rest => (true, rest)
  | '+' :: rest => (false, rest)
  | word => (false, word)

/-- The digits of a decimal number in front of its point. Only a lone zero may start with one. -/
def wholeDigits? (word : List Char) : Option (List Char) := do
  let digits ← groupedDigits? Char.isDigit word
  if 1 < digits.length ∧ digits.head? = some '0' then none else some digits

/-- The value of a digit of a base up to sixteen. -/
def digitValue (c : Char) : Nat :=
  if c.isDigit then c.toNat - 48 else if c.isUpper then c.toNat - 55 else c.toNat - 87

/-- The value of digits in a base. -/
def ofDigitsIn (base : Nat) (digits : List Char) : Nat :=
  digits.foldl (fun n c => base * n + digitValue c) 0

/-- Whether a character is a hexadecimal digit. -/
def isHexDigit (c : Char) : Bool :=
  c.isDigit || ('a' ≤ c && c ≤ 'f') || ('A' ≤ c && c ≤ 'F')

/-- Reads an integer. It may be written in base sixteen, eight or two, and then it has no sign. -/
def integerOfWord? (word : List Char) : Option Int :=
  match word with
  | '0' :: 'x' :: rest => (groupedDigits? isHexDigit rest).map fun ds => ↑(ofDigitsIn 16 ds)
  | '0' :: 'o' :: rest =>
    (groupedDigits? (fun c => '0' ≤ c && c ≤ '7') rest).map fun ds => ↑(ofDigitsIn 8 ds)
  | '0' :: 'b' :: rest =>
    (groupedDigits? (fun c => c = '0' || c = '1') rest).map fun ds => ↑(ofDigitsIn 2 ds)
  | _ => do
    let (negative, rest) := splitSign word
    let n : Int := Decimal.ofDigits (← wholeDigits? rest)
    return if negative then -n else n

/-- Whether an integer fits in 64 bits with a sign. -/
def fitsWord (n : Int) : Bool := -9223372036854775808 ≤ n && n ≤ 9223372036854775807

/-- The exponent that follows the digits of a number, if nothing else does. -/
def exponentOfWord? : List Char → Option Int
  | [] => some 0
  | c :: rest => do
    if c = 'e' ∨ c = 'E' then
      let (negative, digits) := splitSign rest
      let n : Int := Decimal.ofDigits (← groupedDigits? Char.isDigit digits)
      return if negative then -n else n
    else none

/-- The fraction and the exponent of a number, of which at least one must be there. -/
def fractionOfWord? : List Char → Option (List Char × Int)
  | [] => none
  | '.' :: rest => do
    let isPart := fun (c : Char) => c.isDigit || c = '_'
    let fraction ← groupedDigits? Char.isDigit (rest.takeWhile isPart)
    return (fraction, ← exponentOfWord? (rest.dropWhile isPart))
  | rest => (exponentOfWord? rest).map ([], ·)

/-- Reads a number with a fraction or an exponent, an infinity, or what is not a number. A number
that rounds to the positive infinity is refused. -/
def floatOfWord? (word : List Char) : Option Float := do
  let (negative, rest) := splitSign word
  if rest = "inf".toList then return if negative then -(1.0 / 0.0) else 1.0 / 0.0
  else if rest = "nan".toList then return 0.0 / 0.0
  else
    let isPart := fun (c : Char) => c.isDigit || c = '_'
    let whole ← wholeDigits? (rest.takeWhile isPart)
    let (fraction, exponent) ← fractionOfWord? (rest.dropWhile isPart)
    let value : Decimal :=
      ⟨negative, Decimal.ofDigits (whole ++ fraction), exponent - fraction.length⟩
    let x := value.toFloat
    if x == 1.0 / 0.0 then none else some x

/-! ## Dates and times -/

/-- Whether a word is a number of a fixed count of digits within bounds. -/
def isFixed (count low high : Nat) (word : List Char) : Bool :=
  word.length = count && word.all Char.isDigit &&
    low ≤ Decimal.ofDigits word && Decimal.ofDigits word ≤ high

/-- The number of days of a month. -/
def daysOfMonth (year month : Nat) : Nat :=
  if month = 2 then
    if year % 4 = 0 ∧ (year % 100 ≠ 0 ∨ year % 400 = 0) then 29 else 28
  else if month = 4 ∨ month = 6 ∨ month = 9 ∨ month = 11 then 30
  else 31

/-- Whether a word is a date such as `1979-05-27`. -/
def isDate (word : List Char) : Bool :=
  match word.splitOn '-' with
  | [year, month, day] =>
    isFixed 4 0 9999 year && isFixed 2 1 12 month &&
      isFixed 2 1 (daysOfMonth (Decimal.ofDigits year) (Decimal.ofDigits month)) day
  | _ => false

/-- Whether a word is a time without an offset, such as `07:32:00.5`. -/
def isTime (word : List Char) : Bool :=
  match word.splitOn ':' with
  | [hour, minute, second] =>
    isFixed 2 0 23 hour && isFixed 2 0 59 minute &&
      match second.splitOn '.' with
      | [whole] => isFixed 2 0 60 whole
      | [whole, fraction] =>
        isFixed 2 0 60 whole && !fraction.isEmpty && fraction.all Char.isDigit
      | _ => false
  | _ => false

/-- Whether a word is an offset from universal time, such as `Z` or `-07:00`. -/
def isOffset : List Char → Bool
  | ['Z'] | ['z'] => true
  | sign :: rest =>
    (sign = '+' || sign = '-') &&
      match rest.splitOn ':' with
      | [hour, minute] => isFixed 2 0 23 hour && isFixed 2 0 59 minute
      | _ => false
  | [] => false

/-- Whether a word is a time that an offset may follow. -/
def isOffsetTime (word : List Char) : Bool :=
  let isPart := fun (c : Char) => c.isDigit || c = ':' || c = '.'
  let offset := word.dropWhile isPart
  isTime (word.takeWhile isPart) && (offset.isEmpty || isOffset offset)

/-- Whether a word is a date, a time, or a date with a time behind the letter `T`. -/
def isDatetime (word : List Char) : Bool :=
  isDate word || isTime word ||
    (isDate (word.take 10) &&
      match word.drop 10 with
      | c :: time => (c = 'T' || c = 't') && isOffsetTime time
      | [] => false)

/-! ## Words -/

/-- Whether a character may stand in a word. -/
def isWordChar (c : Char) : Bool :=
  c.isAlphanum || c = '_' || c = '+' || c = '-' || c = '.' || c = ':'

/-- The value that a word denotes. -/
def ofWord? (word : List Char) : Option Value :=
  if word = "true".toList then some (.bool true)
  else if word = "false".toList then some (.bool false)
  else if isDatetime word then some .datetime
  else
    match floatOfWord? word with
    | some x => some (.float x)
    | none => (integerOfWord? word).bind fun n => if fitsWord n then some (.integer n) else none

/-- Reads the word at the start of a text. A date takes a time behind a blank with it. -/
def scanScalar (text : List Char) : Option (Value × List Char) :=
  let word := text.takeWhile isWordChar
  let rest := text.dropWhile isWordChar
  if isDate word ∧ rest.head? = some ' ' ∧
      isOffsetTime ((rest.drop 1).takeWhile isWordChar) then
    some (.datetime, (rest.drop 1).dropWhile isWordChar)
  else (ofWord? word).map (·, rest)

end ChainDiagram.Toml
