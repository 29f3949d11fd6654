import Mathlib.Algebra.Field.Rat
import Mathlib.Algebra.GroupWithZero.Basic
import Mathlib.Data.List.DropRight
import Mathlib.Tactic.Ring
import ChainDiagram.Json.Token
import ChainDiagram.Proofs.Lines
import ChainDiagram.Proofs.Spelling

/-!
# Numbers of JSON are read back

A number has no closing mark, so it is told from what follows it by where its digits, its fraction
and its exponent end. What is written is always a numeral that can be read, and it is read as the
same number: an integer as itself, and a decimal as a decimal of the same value. The two decimals
may differ in how they count, since the zeros at the end of a mantissa are not written, and
positional notation may put others there.

## What is here

* `EndsNumber`: what may follow a number.
* `Numeral.WellFormed`: a numeral that can be read; `scanNumber_text_append`: it is read.
* `Number.wellFormed_numeral`: what is written for a number is such a numeral.
* `Number.reread`: the number that is read back. An integer is the same (`Number.reread_integer`),
  and a decimal has the same value (`Number.exists_reread_decimal`).
-/

set_option autoImplicit false

namespace ChainDiagram

/-- The number that a decimal is. -/
def Decimal.toRat (d : Decimal) : ℚ :=
  (if d.negative then -1 else 1) * (d.mantissa * 10 ^ d.exponent)

/-- A power of ten may be counted by the mantissa or by the exponent. -/
theorem Decimal.toRat_scaled (negative : Bool) (mantissa count : Nat) (exponent : Int) :
    toRat ⟨negative, mantissa * 10 ^ count, exponent⟩ =
      toRat ⟨negative, mantissa, exponent + count⟩ := by
  have hpower : (10 : ℚ) ^ (exponent + count) = 10 ^ count * 10 ^ exponent := by
    rw [zpow_add₀ (by norm_num), zpow_natCast, mul_comm]
  rw [toRat, toRat, hpower, Nat.cast_mul, Nat.cast_pow, Nat.cast_ofNat, mul_assoc (mantissa : ℚ)]

namespace Json

/-! ## Where the parts of a numeral end -/

/-- What can follow a number: it does not go on with a digit, a fraction or an exponent. -/
def EndsNumber (rest : List Char) : Prop := ∀ c ∈ rest.head?, ¬c.isDigit ∧ c ∉ ['.', 'e', 'E']

section Parts

variable {digits rest : List Char}

/-- A run of digits is read up to what is no digit. -/
theorem scanDigits_append (hne : digits ≠ []) (hdigits : ∀ c ∈ digits, c.isDigit)
    (hend : ∀ c ∈ rest.head?, ¬c.isDigit) : scanDigits (digits ++ rest) = some (digits, rest) := by
  rw [scanDigits, Line.takeWhile_append_of_head? hdigits hend,
    dropWhile_append_of_head? hdigits hend]
  cases digits with
  | nil => exact absurd rfl hne
  | cons c digits => rfl

/-- A fraction is read up to what is no digit, and no fraction where there is no point. -/
theorem scanFraction_append (hdigits : ∀ c ∈ digits, c.isDigit)
    (hend : ∀ c ∈ rest.head?, ¬c.isDigit ∧ c ≠ '.') :
    scanFraction (fractionText digits ++ rest) = some (digits, rest) := by
  cases digits with
  | nil =>
    cases rest with
    | nil => rfl
    | cons c rest =>
      rw [fractionText, List.nil_append, scanFraction]
      rintro rest' heq
      exact (hend c rfl).2 (List.cons.inj heq).1
  | cons c digits =>
    exact scanDigits_append (List.cons_ne_nil _ _) hdigits fun d hd => (hend d hd).1

theorem isDigit_of_mem_toDigits {n : Nat} {c : Char} (hc : c ∈ Nat.toDigits 10 n) : c.isDigit :=
  Nat.isDigit_of_mem_toDigits (by decide) (by decide) hc

/-- An exponent is read with its sign, and no exponent where the number ends. -/
theorem scanExponent_append (exponent? : Option Int) (hrest : EndsNumber rest) :
    scanExponent (exponentText exponent? ++ rest) = some (exponent?, rest) := by
  cases exponent? with
  | none =>
    cases rest with
    | nil => rfl
    | cons c rest =>
      have hc : ¬(c = 'e' ∨ c = 'E') := by
        rintro (rfl | rfl)
        · exact (hrest 'e' rfl).2 (by simp)
        · exact (hrest 'E' rfl).2 (by simp)
      rw [exponentText, List.nil_append, scanExponent, if_neg hc]
  | some exponent =>
    have hdigits : scanDigits (Nat.toDigits 10 exponent.natAbs ++ rest) =
        some (Nat.toDigits 10 exponent.natAbs, rest) :=
      scanDigits_append Nat.toDigits_ne_nil (fun c => isDigit_of_mem_toDigits)
        fun c hc => (hrest c hc).1
    have hsign : scanSign ((if exponent < 0 then '-' else '+') ::
        (Nat.toDigits 10 exponent.natAbs ++ rest)) =
          (decide (exponent < 0), Nat.toDigits 10 exponent.natAbs ++ rest) := by
      by_cases hneg : exponent < 0 <;> simp [hneg, scanSign]
    have hvalue : (if exponent < 0 then -(exponent.natAbs : Int) else exponent.natAbs) =
        exponent := by omega
    rw [exponentText, List.cons_append, List.cons_append, scanExponent, if_pos (.inl rfl)]
    simp only [hsign, hdigits, Option.map_some, Decimal.ofDigits_toDigits, decide_eq_true_eq,
      hvalue]

end Parts

/-! ## Numerals -/

/-- A numeral that can be read: there are digits in front of the point, and they begin with a zero
only if they are nothing else. -/
structure Numeral.WellFormed (numeral : Numeral) : Prop where
  whole_ne_nil : numeral.whole ≠ []
  isDigit_whole : ∀ c ∈ numeral.whole, c.isDigit
  eq_zero : numeral.whole.head? = some '0' → numeral.whole = ['0']
  isDigit_fraction : ∀ c ∈ numeral.fraction, c.isDigit

/-- **A numeral is read as the number that it denotes**, where the number may end. -/
theorem scanNumber_text_append {numeral : Numeral} (h : numeral.WellFormed) (negative : Bool)
    {rest : List Char} (hrest : EndsNumber rest) :
    scanNumber negative (numeral.text ++ rest) =
      some (.number (numeral.toNumber negative), rest) := by
  have hexponent : ∀ c ∈ (exponentText numeral.exponent? ++ rest).head?, ¬c.isDigit ∧ c ≠ '.' := by
    cases numeral.exponent? with
    | none => exact fun c hc => ⟨(hrest c hc).1, fun hpoint => (hrest c hc).2 (by simp [hpoint])⟩
    | some exponent =>
      rintro c ⟨⟩
      decide
  have hfraction : ∀ c ∈ (fractionText numeral.fraction ++
      (exponentText numeral.exponent? ++ rest)).head?, ¬c.isDigit := by
    cases numeral.fraction with
    | nil => exact fun c hc => (hexponent c hc).1
    | cons digit digits =>
      rintro c ⟨⟩
      decide
  have hzero : ¬(1 < numeral.whole.length ∧ numeral.whole.head? = some '0') := by
    rintro ⟨hlength, hhead⟩
    rw [h.eq_zero hhead] at hlength
    exact absurd hlength (by decide)
  rw [Numeral.text, List.append_assoc, List.append_assoc, scanNumber,
    scanDigits_append h.whole_ne_nil h.isDigit_whole hfraction]
  simp only [Option.bind_eq_bind, Option.bind_some, if_neg hzero,
    scanFraction_append h.isDigit_fraction hexponent, scanExponent_append _ hrest]
  rfl

/-- Only zero is written with a zero in front. -/
theorem eq_zero_of_head?_toDigits {n : Nat} (h : (Nat.toDigits 10 n).head? = some '0') : n = 0 := by
  induction n using Nat.strongRecOn with
  | _ n ih =>
    rw [Nat.toDigits_eq_if (by decide)] at h
    split at h
    · have hdigit : ∀ n < 10, [Nat.digitChar n].head? = some '0' → n = 0 := by decide
      exact hdigit n ‹_› h
    · rw [List.head?_append_of_ne_nil _ Nat.toDigits_ne_nil] at h
      have := ih (n / 10) (by omega) h
      omega

theorem wellFormed_toDigits (n : Nat) : Numeral.WellFormed ⟨Nat.toDigits 10 n, [], none⟩ where
  whole_ne_nil := Nat.toDigits_ne_nil
  isDigit_whole _ := isDigit_of_mem_toDigits
  eq_zero h := by
    rw [show Nat.toDigits 10 n = Nat.toDigits 10 0 from congrArg _ (eq_zero_of_head?_toDigits h)]
    rfl
  isDigit_fraction _ := nofun

/-! ## Decimals -/

section Digits

theorem ofDigits_append (digits digits' : List Char) :
    Decimal.ofDigits (digits ++ digits') =
      Decimal.ofDigits digits * 10 ^ digits'.length + Decimal.ofDigits digits' := by
  rw [Decimal.ofDigits, Nat.ofDigitChars_append, Nat.ofDigitChars_eq_ofDigitChars_zero,
    Nat.mul_comm]
  rfl

theorem ofDigits_zeros (count : Nat) : Decimal.ofDigits (List.replicate count '0') = 0 := by
  induction count with
  | zero => rfl
  | succ count ih =>
    rw [List.replicate_succ, ← List.singleton_append, ofDigits_append, ih]
    simp [Decimal.ofDigits, Nat.ofDigitChars]

/-- Zeros behind the digits of a number multiply it. -/
theorem ofDigits_append_zeros (digits : List Char) (count : Nat) :
    Decimal.ofDigits (digits ++ List.replicate count '0') =
      Decimal.ofDigits digits * 10 ^ count := by
  rw [ofDigits_append, ofDigits_zeros, List.length_replicate, Nat.add_zero]

/-- Zeros in front of the digits do nothing. -/
theorem ofDigits_zeros_append (count : Nat) (digits : List Char) :
    Decimal.ofDigits (List.replicate count '0' ++ digits) = Decimal.ofDigits digits := by
  rw [ofDigits_append, ofDigits_zeros, Nat.zero_mul, Nat.zero_add]

end Digits

/-- **The digits of a number without the zeros at its end.** -/
theorem exists_toDigits_eq_append {n : Nat} (hn : n ≠ 0) :
    ∃ digits count,
      ((Nat.toDigits 10 n).reverse.dropWhile (· = '0')).reverse = digits ∧
      Nat.toDigits 10 n = digits ++ List.replicate count '0' ∧
      digits ≠ [] ∧ (∀ c ∈ digits, c.isDigit) ∧ digits.head? ≠ some '0' := by
  have hwritten := List.rdropWhile_append_rtakeWhile (p := (· = '0')) (l := Nat.toDigits 10 n)
  have hzeros : (Nat.toDigits 10 n).rtakeWhile (· = '0') =
      List.replicate ((Nat.toDigits 10 n).rtakeWhile (· = '0')).length '0' :=
    List.eq_replicate_of_mem fun c hc => by simpa using List.mem_rtakeWhile_imp hc
  have hne : (Nat.toDigits 10 n).rdropWhile (· = '0') ≠ [] := by
    intro hnil
    rw [hnil, List.nil_append] at hwritten
    have hvalue := Decimal.ofDigits_toDigits n
    rw [← hwritten, hzeros, ofDigits_zeros] at hvalue
    exact hn hvalue.symm
  refine ⟨(Nat.toDigits 10 n).rdropWhile (· = '0'), _, rfl, hwritten.symm.trans (congrArg _ hzeros),
    hne, fun c hc => ?_, fun hhead => ?_⟩
  · exact isDigit_of_mem_toDigits (hwritten ▸ List.mem_append_left _ hc)
  · have hfirst : (Nat.toDigits 10 n).head? = some '0' := by
      rw [← hwritten, List.head?_append_of_ne_nil _ hne, hhead]
    exact hn (eq_zero_of_head?_toDigits hfirst)

/-- A numeral denotes the number with some digits, the last of which counts a power of ten. -/
structure Numeral.Denotes (numeral : Numeral) (digits : List Char) (exponent : Int) : Prop where
  wellFormed : numeral.WellFormed
  /-- It has a point or an exponent, so it is no integer. -/
  isDecimal : numeral.fraction ≠ [] ∨ numeral.exponent? ≠ none
  /-- There may be zeros behind the digits. -/
  value : ∃ count : Nat,
    Decimal.ofDigits (numeral.whole ++ numeral.fraction) = Decimal.ofDigits digits * 10 ^ count ∧
      numeral.exponent?.getD 0 - numeral.fraction.length + count = exponent

section Denotes

variable {digits : List Char} (hne : digits ≠ []) (hdigits : ∀ c ∈ digits, c.isDigit)

include hne hdigits

/-- Nothing but a zero in front of the point. -/
theorem denotes_small {first : Int} (hfirst : first < 0) :
    Numeral.Denotes ⟨['0'], List.replicate (first.natAbs - 1) '0' ++ digits, none⟩ digits
      (first + 1 - digits.length) := by
  refine ⟨⟨List.cons_ne_nil _ _, List.forall_mem_singleton.2 (by decide), fun _ => rfl,
    fun c hc => ?_⟩,
    .inl (List.append_ne_nil_of_right_ne_nil _ hne), 0, ?_, ?_⟩
  · rcases List.mem_append.1 hc with hzero | hc
    · rw [List.eq_of_mem_replicate hzero]
      decide
    · exact hdigits c hc
  · rw [← List.append_assoc, ← List.replicate_one, ← List.replicate_add, ofDigits_zeros_append,
      Nat.pow_zero, Nat.mul_one]
  · simp only [Option.getD_none, List.length_append, List.length_replicate]
    omega

variable (hhead : digits.head? ≠ some '0')

include hhead

/-- One digit in front of the point, and an exponent. -/
theorem denotes_scientific (first : Int) :
    Numeral.Denotes ⟨digits.take 1, digits.drop 1, some first⟩ digits
      (first + 1 - digits.length) := by
  obtain ⟨c, rest, rfl⟩ := List.exists_cons_of_ne_nil hne
  refine ⟨⟨List.cons_ne_nil _ _, fun d hd => hdigits d (List.mem_of_mem_take hd),
    fun hzero => absurd hzero hhead, fun d hd => hdigits d (List.mem_of_mem_drop hd)⟩,
    .inr (Option.some_ne_none _), 0, ?_, ?_⟩
  · rw [List.take_append_drop, Nat.pow_zero, Nat.mul_one]
  · simp only [Option.getD_some, List.drop_one, List.tail_cons, List.length_cons]
    omega

/-- As many digits in front of the point as there are places, and zeros for those that are
missing. -/
theorem denotes_plain {first : Int} (hfirst : 0 ≤ first) :
    Numeral.Denotes
      ⟨digits.take (first.toNat + 1) ++
          List.replicate (first.toNat + 1 - digits.length) '0',
        if (digits.drop (first.toNat + 1)).isEmpty then ['0'] else digits.drop (first.toNat + 1),
        none⟩ digits (first + 1 - digits.length) := by
  obtain ⟨c, rest, rfl⟩ := List.exists_cons_of_ne_nil hne
  have hwhole : ∀ d ∈ (c :: rest).take (first.toNat + 1) ++
      List.replicate (first.toNat + 1 - (c :: rest).length) '0', d.isDigit := by
    intro d hd
    rcases List.mem_append.1 hd with hd | hzero
    · exact hdigits d (List.mem_of_mem_take hd)
    · rw [List.eq_of_mem_replicate hzero]
      decide
  split
  · -- all digits stand in front of the point, and zeros follow them
    rename_i hall
    have hle : (c :: rest).length ≤ first.toNat + 1 :=
      List.drop_eq_nil_iff.1 (List.isEmpty_iff.1 hall)
    refine ⟨⟨List.cons_ne_nil _ _, hwhole, fun hzero => absurd hzero hhead,
      List.forall_mem_singleton.2 (by decide)⟩,
      .inl (List.cons_ne_nil _ _), first.toNat + 1 - (c :: rest).length + 1, ?_, ?_⟩
    · rw [List.take_of_length_le hle, List.append_assoc, ← List.replicate_one,
        ← List.replicate_add, ofDigits_append_zeros]
    · simp only [Option.getD_none, List.length_singleton]
      omega
  · rename_i hsome
    have hlt : first.toNat + 1 < (c :: rest).length := by
      by_contra hnot
      exact hsome (List.isEmpty_iff.2 (List.drop_eq_nil_iff.2 (Nat.not_lt.1 hnot)))
    have hnone : first.toNat + 1 - (c :: rest).length = 0 :=
      Nat.sub_eq_zero_of_le (Nat.le_of_lt hlt)
    refine ⟨⟨List.cons_ne_nil _ _, hwhole, fun hzero => absurd hzero hhead,
      fun d hd => hdigits d (List.mem_of_mem_drop hd)⟩,
      .inl fun hnil => hsome (List.isEmpty_iff.2 hnil), 0, ?_, ?_⟩
    · rw [hnone, List.replicate_zero, List.append_nil, List.take_append_drop, Nat.pow_zero,
        Nat.mul_one]
    · simp only [Option.getD_none, List.length_drop]
      omega

end Denotes

/-- **The numeral of a decimal denotes its digits.** -/
theorem denotes_ofDecimal (layout : DecimalLayout) {d : Decimal} (h : d.mantissa ≠ 0) :
    ∃ digits, ∃ count : Nat, d.mantissa = Decimal.ofDigits digits * 10 ^ count ∧
      (Numeral.ofDecimal layout d).Denotes digits (d.exponent + count) := by
  obtain ⟨digits, count, hstripped, hwritten, hne, hdigits, hhead⟩ := exists_toDigits_eq_append h
  have hmantissa : d.mantissa = Decimal.ofDigits digits * 10 ^ count := by
    rw [← ofDigits_append_zeros, ← hwritten, Decimal.ofDigits_toDigits]
  have hlength : (Nat.toDigits 10 d.mantissa).length = digits.length + count := by
    rw [hwritten, List.length_append, List.length_replicate]
  have hexponent : d.exponent + (Nat.toDigits 10 d.mantissa).length - 1 + 1 - digits.length =
      d.exponent + count := by
    rw [hlength]
    omega
  refine ⟨digits, count, hmantissa, ?_⟩
  rw [← hexponent]
  simp only [Numeral.ofDecimal, if_neg h, hstripped]
  split
  · exact denotes_scientific hne hdigits hhead _
  · split
    · rename_i hneg
      exact denotes_small hne hdigits hneg
    · rename_i hpos
      exact denotes_plain hne hdigits hhead (Int.not_lt.1 hpos)

/-- The numeral of zero. -/
theorem ofDecimal_of_mantissa_eq_zero (layout : DecimalLayout) {d : Decimal} (h : d.mantissa = 0) :
    Numeral.ofDecimal layout d = ⟨['0'], ['0'], none⟩ := if_pos h

theorem wellFormed_ofDecimal (layout : DecimalLayout) (d : Decimal) :
    (Numeral.ofDecimal layout d).WellFormed := by
  by_cases h : d.mantissa = 0
  · rw [ofDecimal_of_mantissa_eq_zero layout h]
    exact ⟨List.cons_ne_nil _ _, List.forall_mem_singleton.2 (by decide), fun _ => rfl,
      List.forall_mem_singleton.2 (by decide)⟩
  · obtain ⟨digits, count, -, hdenotes⟩ := denotes_ofDecimal layout h
    exact hdenotes.wellFormed

/-! ## What is read back -/

/-- **The number that is read back**: what the written numeral denotes. -/
def Number.reread (number : Number) : Number := number.numeral.toNumber number.negative

/-- **What is written for a number can be read.** -/
theorem Number.wellFormed_numeral (number : Number) : number.numeral.WellFormed := by
  cases number with
  | integer negative n => exact wellFormed_toDigits n
  | decimal value => exact wellFormed_ofDecimal decimalLayout value

/-- **An integer is read back as itself.** -/
@[simp] theorem Number.reread_integer (negative : Bool) (n : Nat) :
    (integer negative n).reread = integer negative n :=
  congrArg (integer negative) (Decimal.ofDigits_toDigits n)

theorem Numeral.toNumber_eq_decimal {numeral : Numeral}
    (h : numeral.fraction ≠ [] ∨ numeral.exponent? ≠ none) (negative : Bool) :
    numeral.toNumber negative =
      .decimal ⟨negative, Decimal.ofDigits (numeral.whole ++ numeral.fraction),
        numeral.exponent?.getD 0 - numeral.fraction.length⟩ := by
  obtain ⟨whole, fraction, exponent?⟩ := numeral
  cases fraction with
  | cons c fraction => rfl
  | nil =>
    cases exponent? with
    | some exponent => rfl
    | none => exact absurd rfl (h.resolve_left fun hne => hne rfl)

/-- **A decimal is read back as a decimal of the same value**, and zero with its sign. -/
theorem Number.exists_reread_decimal (d : Decimal) :
    ∃ d' : Decimal, (decimal d).reread = decimal d' ∧ d'.negative = d.negative ∧
      d'.toRat = d.toRat := by
  by_cases h : d.mantissa = 0
  · refine ⟨⟨d.negative, 0, -1⟩, ?_, rfl, ?_⟩
    · rw [reread, numeral, ofDecimal_of_mantissa_eq_zero decimalLayout h]
      rfl
    · rw [Decimal.toRat, Decimal.toRat, h, Nat.cast_zero, zero_mul, zero_mul, mul_zero]
  · obtain ⟨digits, count, hmantissa, hdenotes⟩ := denotes_ofDecimal decimalLayout h
    obtain ⟨count', hvalue, hexponent⟩ := hdenotes.value
    refine ⟨_, Numeral.toNumber_eq_decimal hdenotes.isDecimal d.negative, rfl, ?_⟩
    obtain ⟨negative, mantissa, exponent⟩ := d
    obtain rfl : mantissa = _ := hmantissa
    rw [hvalue, Decimal.toRat_scaled, hexponent, Decimal.toRat_scaled]

end Json

end ChainDiagram
