import ChainDiagram.Decimal

/-!
# JSON values

The tree that a JSON text denotes. `ChainDiagram.Json.Reader` reads one from text and
`ChainDiagram.Json.Writer` writes one, so that both directions share this type; what a program's
own data look like as such a tree is said where the data are defined.
-/

set_option autoImplicit false

namespace ChainDiagram

namespace Json

/-- A JSON number. One without fraction and exponent is an integer, and keeps its sign even if it
is zero. -/
inductive Number where
  | integer (negative : Bool) (magnitude : Nat)
  | decimal (value : Decimal)
  deriving DecidableEq, Repr

/-- The double-precision number nearest to a JSON number. -/
def Number.toFloat : Number → Float
  | integer negative magnitude => Decimal.toFloat ⟨negative, magnitude, 0⟩
  | decimal value => value.toFloat

end Json

/-- A JSON value. The members of an object stand in the order in which they are written. -/
inductive Json where
  | null
  | bool (value : Bool)
  | number (value : Json.Number)
  | string (text : String)
  | array (items : List Json)
  | object (members : List (String × Json))
  /-- A string that is no Unicode text, since it escapes half of a surrogate pair, or an object with
  such a key. It is well formed but denotes nothing. -/
  | unpaired
  deriving Repr

namespace Json

/-- A natural number as a JSON value. -/
def ofNat (n : Nat) : Json := number (.integer false n)

/-- Numbers that count or index something have 64 bits. -/
def wordBound : Nat := 18446744073709551616

/-- Reads a natural number: an integer without a sign that fits in 64 bits. -/
def toNat? : Json → Option Nat
  | number (.integer false n) => if n < wordBound then some n else none
  | _ => none

theorem toNat?_ofNat {n : Nat} (h : n < wordBound) : (ofNat n).toNat? = some n := by
  simp [ofNat, toNat?, h]

/-- Reads a text. -/
def toText? : Json → Option String
  | string text => some text
  | _ => none

/-- Reads a list, given how to read an item. -/
def toList? {α : Type} (item : Json → Option α) : Json → Option (List α)
  | array items => items.mapM item
  | _ => none

end Json

end ChainDiagram
