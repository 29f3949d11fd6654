import ChainDiagram.Statement

/-!
# The keys of nodes

Elements that are written alike are the same node. What they have to share is their key: the
enclosure, and the name of the variable or of the literal between the brackets.

A literal has no name of its own, so it gets one from its text and its enclosure. The name is a
polynomial hash in decimal: with the code points `c₀, c₁, …` of the text followed by the opener, it
is the sum of `cᵢ * 307 ^ i` modulo a prime. Names of variables consist of letters, so no literal
has the name of a variable.
-/

set_option autoImplicit false

namespace ChainDiagram

/-! ## The names of literals -/

/-- The hash of a text as far as it has been read, and the power of the base that the next character
counts. -/
structure Fingerprint where
  value : UInt64
  power : UInt64
  deriving DecidableEq, Repr

namespace Fingerprint

/-- The base of the hash. -/
def base : UInt64 := 307

/-- The modulus of the hash, a prime. -/
def modulus : UInt64 := 87178291199

/-- The hash of the empty text. -/
def empty : Fingerprint := ⟨0, 1⟩

/-- Adds a character. -/
def add (f : Fingerprint) (c : Char) : Fingerprint where
  value := (f.value + c.val.toUInt64 * f.power) % modulus
  power := f.power * base % modulus

/-- The hash of a text. -/
def ofText (text : List Char) : Fingerprint := text.foldl add empty

end Fingerprint

/-- The name of a literal. -/
def nameOfLiteral (text : String) (enclosure : Enclosure) : String :=
  toString (Fingerprint.ofText (text.toList ++ [enclosure.opener])).value.toNat

/-! ## Keys -/

/-- What identifies a node. -/
structure NodeKey where
  enclosure : Enclosure
  name : String
  deriving DecidableEq, Repr

/-- The key of the node that an element means. -/
def Element.key (element : Element) : NodeKey :=
  match element.label with
  | .literal text => ⟨element.enclosure, nameOfLiteral text element.enclosure⟩
  | .reference name => ⟨element.enclosure, name⟩

end ChainDiagram
