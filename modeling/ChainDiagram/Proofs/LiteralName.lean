import ChainDiagram.Proofs.Draft

/-!
# The names of literals

The name of a literal is a hash in decimal. The hash is computed in words of 64 bits, and both the
hash and the power of the base are reduced after every character. No word overflows on the way, so
what comes out is the polynomial of the text, modulo the modulus.

The modulus is larger than any code point, and the base is invertible modulo it. So a single
character that changes changes the hash, wherever it stands.

## What is here

* `Fingerprint.polynomial`: the hash without any reduction.
* `Fingerprint.IsOf`: what a fingerprint holds of a text. It survives each character
  (`Fingerprint.IsOf.add`), since all words fit (`Fingerprint.IsOf.fits`).
* `OneApart`: two texts that differ in one place. Their hashes differ (`OneApart.value_ne`).
* `names_of_literals_are_exact`: the name of a literal, and which names differ.
-/

set_option autoImplicit false

namespace ChainDiagram

namespace Fingerprint

/-! ## The polynomial -/

/-- The sum of `cᵢ * 307 ^ i` over the code points `c₀, c₁, …` of a text. -/
def polynomial (text : List Char) : Nat := (text.mapIdx fun i c => c.toNat * 307 ^ i).sum

theorem polynomial_concat (text : List Char) (c : Char) :
    polynomial (text ++ [c]) = polynomial text + c.toNat * 307 ^ text.length := by
  rw [polynomial, List.mapIdx_concat, List.sum_append, List.sum_singleton, polynomial]

/-- A character that is replaced takes its own term away. -/
theorem polynomial_replace (before after : List Char) (c c' : Char) :
    polynomial (before ++ c :: after) + c'.toNat * 307 ^ before.length =
      polynomial (before ++ c' :: after) + c.toNat * 307 ^ before.length := by
  simp only [polynomial, List.mapIdx_append, List.mapIdx_cons, List.sum_append, List.sum_cons,
    Nat.zero_add]
  omega

/-! ## What a fingerprint holds -/

/-- A code point is far below the modulus. -/
theorem toNat_char_lt (c : Char) : c.toNat < 1114112 := by
  have h := c.valid
  rw [UInt32.isValidChar, Nat.isValidChar] at h
  rw [Char.toNat]
  omega

/-- The words that come up when a character is added are smaller than `2 ^ 64`. -/
structure Fits (f : Fingerprint) (c : Char) : Prop where
  product_lt : c.toNat * f.power.toNat < UInt64.size
  sum_lt : f.value.toNat + c.toNat * f.power.toNat < UInt64.size
  power_lt : f.power.toNat * 307 < UInt64.size

/-- What fits is computed without any loss. -/
theorem Fits.toNat_value_add {f : Fingerprint} {c : Char} (h : f.Fits c) :
    (f.add c).value.toNat = (f.value.toNat + c.toNat * f.power.toNat) % 87178291199 := by
  have hproduct : (c.val.toUInt64 * f.power).toNat = c.toNat * f.power.toNat := by
    rw [UInt64.toNat_mul, UInt32.toNat_toUInt64]
    exact Nat.mod_eq_of_lt h.product_lt
  rw [add, UInt64.toNat_mod, UInt64.toNat_add, hproduct, Nat.mod_eq_of_lt h.sum_lt]
  rfl

theorem Fits.toNat_power_add {f : Fingerprint} {c : Char} (h : f.Fits c) :
    (f.add c).power.toNat = f.power.toNat * 307 % 87178291199 := by
  have hproduct : (f.power * base).toNat = f.power.toNat * 307 := by
    rw [UInt64.toNat_mul]
    exact Nat.mod_eq_of_lt h.power_lt
  rw [add, UInt64.toNat_mod, hproduct]
  rfl

/-- The fingerprint holds the polynomial of the text and the next power, both reduced. -/
structure IsOf (f : Fingerprint) (text : List Char) : Prop where
  toNat_value : f.value.toNat = polynomial text % 87178291199
  toNat_power : f.power.toNat = 307 ^ text.length % 87178291199

theorem isOf_empty : empty.IsOf [] := ⟨rfl, rfl⟩

section IsOf

variable {f : Fingerprint} {text : List Char}

/-- **No word overflows**: a code point has 21 bits, and what is reduced has 37. -/
theorem IsOf.fits (h : f.IsOf text) (c : Char) : f.Fits c := by
  have hvalue : f.value.toNat < 87178291199 := h.toNat_value ▸ Nat.mod_lt _ (by decide)
  have hpower : f.power.toNat < 87178291199 := h.toNat_power ▸ Nat.mod_lt _ (by decide)
  -- The product is a number of its own to `omega`, so its bound has to be given.
  have hproduct : c.toNat * f.power.toNat ≤ 1114112 * 87178291199 :=
    Nat.mul_le_mul (toNat_char_lt c).le hpower.le
  constructor <;> rw [UInt64.size] <;> omega

/-- To reduce a little earlier changes nothing. -/
theorem IsOf.add (h : f.IsOf text) (c : Char) : (f.add c).IsOf (text ++ [c]) := by
  constructor
  · rw [(h.fits c).toNat_value_add, h.toNat_value, h.toNat_power, polynomial_concat]
    exact (Nat.mod_modEq _ _).add ((Nat.mod_modEq _ _).mul_left _)
  · rw [(h.fits c).toNat_power_add, h.toNat_power, List.length_append, List.length_singleton,
      pow_succ]
    exact (Nat.mod_modEq _ _).mul_right _

end IsOf

/-- **The hash of a text is exact.** -/
theorem isOf_ofText (text : List Char) : (ofText text).IsOf text := by
  induction text using List.reverseRecOn with
  | nil => exact isOf_empty
  | append_singleton text c ih =>
    rw [ofText, List.foldl_append, ← ofText]
    exact ih.add c

end Fingerprint

/-! ## Texts that differ in one place -/

/-- Two lists of the same length that differ at exactly one position. -/
structure OneApart {α : Type} (s s' : List α) : Prop where
  length_eq : s.length = s'.length
  existsUnique_ne : ∃! i : Nat, s[i]? ≠ s'[i]?

section OneApart

variable {α : Type} {s s' : List α}

/-- Such lists agree in front of that position and behind it. -/
theorem OneApart.exists_append (h : OneApart s s') :
    ∃ before a a' after, a ≠ a' ∧ s = before ++ a :: after ∧ s' = before ++ a' :: after := by
  obtain ⟨hlength, i, hi, hunique⟩ := h
  have his : i < s.length := by
    by_contra hnot
    rw [List.getElem?_eq_none (Nat.not_lt.1 hnot),
      List.getElem?_eq_none (hlength ▸ Nat.not_lt.1 hnot)] at hi
    exact hi rfl
  have his' : i < s'.length := hlength ▸ his
  have hset : s' = s.set i s'[i] := by
    refine List.ext_getElem? fun j => ?_
    rw [List.getElem?_set]
    split
    · rename_i hij
      rw [← hij, List.getElem?_eq_getElem his']
    · rename_i hij
      by_contra hne
      exact hij (hunique j (Ne.symm hne)).symm
  refine ⟨s.take i, s[i], s'[i], s.drop (i + 1), fun heq => hi ?_, ?_, ?_⟩
  · rw [List.getElem?_eq_getElem his, List.getElem?_eq_getElem his', heq]
  · rw [List.cons_getElem_drop_succ, List.take_append_drop]
  · rw [List.set_eq_take_append_cons_drop, if_pos his] at hset
    exact hset

theorem oneApart_append {a a' : α} (hne : a ≠ a') (before after : List α) :
    OneApart (before ++ a :: after) (before ++ a' :: after) := by
  refine ⟨by simp, before.length, by simpa using hne, fun i hi => ?_⟩
  by_contra hnot
  refine hi ?_
  rcases Nat.lt_or_gt_of_ne hnot with hlt | hgt
  · rw [List.getElem?_append_left hlt, List.getElem?_append_left hlt]
  · obtain ⟨k, rfl⟩ := Nat.exists_eq_add_of_lt hgt
    rw [List.getElem?_append_right (by omega), List.getElem?_append_right (by omega)]
    have hk : before.length + k + 1 - before.length = k + 1 := by omega
    rw [hk, List.getElem?_cons_succ, List.getElem?_cons_succ]

end OneApart

/-- **One character that changes changes the hash.** Its term changes by a multiple of a power of
the base, which is invertible, and the factor is smaller than the modulus. -/
theorem OneApart.value_ne {s s' : List Char} (h : OneApart s s') :
    (Fingerprint.ofText s).value.toNat ≠ (Fingerprint.ofText s').value.toNat := by
  obtain ⟨before, c, c', after, hne, rfl, rfl⟩ := h.exists_append
  rw [(Fingerprint.isOf_ofText _).toNat_value, (Fingerprint.isOf_ofText _).toNat_value]
  intro heq
  -- All other terms are the same on both sides.
  have hterm : c'.toNat * 307 ^ before.length ≡ c.toNat * 307 ^ before.length [MOD 87178291199] :=
    Nat.ModEq.add_left_cancel heq
      (Fingerprint.polynomial_replace before after c c' ▸ Nat.ModEq.refl _)
  have hcoprime : Nat.gcd 87178291199 (307 ^ before.length) = 1 :=
    Nat.Coprime.pow_right _ (by decide)
  have hlt := Fingerprint.toNat_char_lt c
  have hlt' := Fingerprint.toNat_char_lt c'
  have hcode : c'.toNat = c.toNat :=
    (Nat.ModEq.cancel_right_of_coprime hcoprime hterm).eq_of_lt_of_lt (by omega) (by omega)
  exact hne (Char.toNat_inj.1 hcode).symm

/-! ## Names -/

/-- The text that the name of a literal is the hash of. -/
def hashedText (text : String) (enclosure : Enclosure) : List Char :=
  text.toList ++ [enclosure.opener]

/-- The name of a literal tells its hash. -/
theorem value_eq_of_nameOfLiteral_eq {text text' : String} {enclosure enclosure' : Enclosure}
    (h : nameOfLiteral text enclosure = nameOfLiteral text' enclosure') :
    (Fingerprint.ofText (hashedText text enclosure)).value.toNat =
      (Fingerprint.ofText (hashedText text' enclosure')).value.toNat := by
  rw [nameOfLiteral, nameOfLiteral, Nat.toString_eq_repr, Nat.toString_eq_repr] at h
  exact Nat.repr_injective h

theorem nameOfLiteral_ne_empty (text : String) (enclosure : Enclosure) :
    nameOfLiteral text enclosure ≠ "" := by
  rw [nameOfLiteral, Nat.toString_eq_repr]
  exact Nat.repr_ne_empty

/-- No run of letters is the name of a literal. -/
theorem readLetters_ne_nameOfLiteral (line : Line) (pos : Nat) (text : String)
    (enclosure : Enclosure) : (line.readLetters pos).1 ≠ nameOfLiteral text enclosure := by
  intro heq
  have hne : (line.readLetters pos).1 ≠ "" := heq ▸ nameOfLiteral_ne_empty text enclosure
  have hname := ((Line.readLetters_eq_iff hne).1 (Prod.eta _).symm).2.1
  exact not_isName_nameOfLiteral text enclosure (heq ▸ hname)

/-- **The name of a literal is exact**: it is the polynomial of its text and opener, modulo the
modulus, in decimal, and no word overflows while it is computed. It consists of digits, so it is no
name that is read from a line. If two of the hashed texts differ in one character only, be it one of
the text or the opener, the names differ. -/
theorem names_of_literals_are_exact :
    (∀ text enclosure,
      nameOfLiteral text enclosure =
          toString (Fingerprint.polynomial (hashedText text enclosure) % 87178291199) ∧
        (∀ before c after, hashedText text enclosure = before ++ c :: after →
          (Fingerprint.ofText before).Fits c) ∧
        nameOfLiteral text enclosure ≠ "" ∧
        (∀ c ∈ (nameOfLiteral text enclosure).toList, c.isDigit) ∧
        ∀ (line : Line) (pos : Nat), (line.readLetters pos).1 ≠ nameOfLiteral text enclosure) ∧
    ∀ text text' enclosure enclosure',
      OneApart (hashedText text enclosure) (hashedText text' enclosure') →
        nameOfLiteral text enclosure ≠ nameOfLiteral text' enclosure' := by
  refine ⟨fun text enclosure => ⟨?_, ?_, nameOfLiteral_ne_empty text enclosure,
    fun c hc => isDigit_of_mem_nameOfLiteral hc,
      fun line pos => readLetters_ne_nameOfLiteral line pos text enclosure⟩, ?_⟩
  · rw [nameOfLiteral, ← hashedText, (Fingerprint.isOf_ofText _).toNat_value]
  · exact fun before c after _ => (Fingerprint.isOf_ofText before).fits c
  · exact fun text text' enclosure enclosure' h heq => h.value_ne (value_eq_of_nameOfLiteral_eq heq)

/-- Neither another letter nor another enclosure leaves the name of a literal as it is. -/
theorem names_of_literals_are_exact_hello :
    OneApart (hashedText "Hello" .rectangle) (hashedText "Hallo" .rectangle) ∧
      OneApart (hashedText "Hello" .rectangle) (hashedText "Hello" .other) ∧
      nameOfLiteral "Hello" .rectangle ≠ nameOfLiteral "Hallo" .rectangle ∧
      nameOfLiteral "Hello" .rectangle ≠ nameOfLiteral "Hello" .other ∧
      (Fingerprint.ofText ['H', 'e', 'l', 'l', 'o']).Fits '[' ∧
      nameOfLiteral "Hello" .rectangle = "81607154320" := by
  have hletter : OneApart (hashedText "Hello" .rectangle) (hashedText "Hallo" .rectangle) :=
    oneApart_append (by decide) ['H'] ['l', 'l', 'o', '[']
  have henclosure : OneApart (hashedText "Hello" .rectangle) (hashedText "Hello" .other) :=
    oneApart_append (by decide) ['H', 'e', 'l', 'l', 'o'] []
  obtain ⟨hexact, hfits, -⟩ := names_of_literals_are_exact.1 "Hello" .rectangle
  have hhash : Fingerprint.polynomial (hashedText "Hello" .rectangle) % 87178291199 =
      81607154320 := rfl
  have hname : nameOfLiteral "Hello" .rectangle = "81607154320" := hexact.trans (hhash ▸ rfl)
  exact ⟨hletter, henclosure, names_of_literals_are_exact.2 _ _ _ _ hletter,
    names_of_literals_are_exact.2 _ _ _ _ henclosure,
      hfits ['H', 'e', 'l', 'l', 'o'] '[' [] rfl, hname⟩

end ChainDiagram
