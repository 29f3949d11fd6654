/-!
# Arrows

Two neighbouring elements of a chain are joined by an arrow. The arrow says which of the two is the
source of the link; the elements stay where they are written.
-/

set_option autoImplicit false

namespace ChainDiagram

/-- The arrow between two elements of a chain. -/
inductive Arrow where
  /-- The arrow `->`: the link leaves the element on the left. -/
  | forward
  /-- The arrow `<-`: the link leaves the element on the right. -/
  | backward
  deriving DecidableEq, Repr, Inhabited

namespace Arrow

/-- The arrow as it is written. -/
def symbol : Arrow → String
  | forward => "->"
  | backward => "<-"

/-- The arrow that a text is. -/
def ofSymbol? : List Char → Option Arrow
  | ['-', '>'] => some forward
  | ['<', '-'] => some backward
  | _ => none

theorem ofSymbol?_eq_some_iff {text : List Char} {arrow : Arrow} :
    ofSymbol? text = some arrow ↔ text = arrow.symbol.toList := by
  constructor
  · intro h
    unfold ofSymbol? at h
    split at h <;> cases h <;> rfl
  · rintro rfl
    cases arrow <;> rfl

/-- The source and the destination of the link between `left` and `right`. -/
def ends {α : Type} (arrow : Arrow) (left right : α) : α × α :=
  match arrow with
  | forward => (left, right)
  | backward => (right, left)

@[simp] theorem ends_forward {α : Type} (left right : α) :
    forward.ends left right = (left, right) := rfl

@[simp] theorem ends_backward {α : Type} (left right : α) :
    backward.ends left right = (right, left) := rfl

end Arrow

end ChainDiagram
