/-!
# Bindings

What each name of a diagram stands for. A declaration must bring a new name, while a literal may
bind its name again as long as the text is the same.
-/

set_option autoImplicit false

namespace ChainDiagram

/-- The names that are bound and what they stand for, in the order in which they were bound. -/
structure Bindings where
  pairs : List (String × String)
  deriving DecidableEq, Repr

namespace Bindings

/-- No names. -/
def empty : Bindings := ⟨[]⟩

/-- What a name stands for. -/
def value? (bindings : Bindings) (name : String) : Option String :=
  (bindings.pairs.find? (·.1 = name)).map Prod.snd

/-- The number of names. -/
def size (bindings : Bindings) : Nat := bindings.pairs.length

/-- Binds a name that is not bound yet. -/
def bind (bindings : Bindings) (name value : String) : Bindings :=
  ⟨bindings.pairs ++ [(name, value)]⟩

/-- Binding a new name changes what that name stands for, and nothing else. -/
theorem value?_bind {bindings : Bindings} {name : String} (h : bindings.value? name = none)
    (value other : String) :
    (bindings.bind name value).value? other =
      if other = name then some value else bindings.value? other := by
  by_cases hother : other = name
  · subst hother
    have hnone : bindings.pairs.find? (·.1 = other) = none := Option.map_eq_none_iff.1 h
    simp [value?, bind, List.find?_append, hnone]
  · simp [value?, bind, List.find?_append, hother, Ne.symm hother]

/-- Binds a name, unless it is bound. -/
def bindNew? (bindings : Bindings) (name value : String) : Option Bindings :=
  match bindings.value? name with
  | some _ => none
  | none => some (bindings.bind name value)

/-- Binds a name, unless it stands for something else. -/
def bindSame? (bindings : Bindings) (name value : String) : Option Bindings :=
  match bindings.value? name with
  | some bound => if bound = value then some bindings else none
  | none => some (bindings.bind name value)

end Bindings

end ChainDiagram
