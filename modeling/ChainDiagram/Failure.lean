/-!
# What is wrong with a line

A line of a diagram can be wrong in a dozen ways (`Fault`), each at some position (`Failure`). Where
a text may be read in two ways and neither fits, the failure that lies further to the right says
more about what was meant, and `firstOrFurthest` reports that one.
-/

set_option autoImplicit false

namespace ChainDiagram

/-- What is wrong with a line. -/
inductive Fault where
  | invalidString
  | notEnclosed
  | invalidEnclosure
  | expectedVariable
  | emptyDeclaration
  | invalidVariableName
  | expectedAssignment
  | emptyValue
  | trailingCharacters
  | danglingLink
  | expectedElement
  | expectedArrow
  deriving DecidableEq, Repr

/-- The wording of a fault. -/
def Fault.message : Fault → String
  | invalidString => "invalid string"
  | notEnclosed => "string should be enclosed"
  | invalidEnclosure => "invalid enclosure"
  | expectedVariable => "expected a variable name"
  | emptyDeclaration => "empty declaration"
  | invalidVariableName => "invalid variable name"
  | expectedAssignment => "expected := after variable name"
  | emptyValue => "empty string value"
  | trailingCharacters => "trailing characters after declaration"
  | danglingLink => "dangling link"
  | expectedElement => "expected a string or variable"
  | expectedArrow => "expected one of ->, <-"

/-- A fault, and the position in the line at which it was noticed. Positions count characters from
zero. -/
structure Failure (F : Type) where
  fault : F
  pos : Nat
  deriving DecidableEq, Repr

/-- The failure further to the right; the first one if neither is. -/
def Failure.further {F : Type} (first second : Failure F) : Failure F :=
  if first.pos < second.pos then second else first

/-- Makes one of two attempts: the first that succeeds, else the one whose failure got further. The
second is made only after the first has failed. -/
def firstOrFurthestM {F α : Type} {m : Type → Type} [Monad m]
    (first second : m (Except (Failure F) α)) : m (Except (Failure F) α) := do
  match ← first with
  | .ok a => return .ok a
  | .error e =>
    match ← second with
    | .ok a => return .ok a
    | .error e' => return .error (e.further e')

/-- Reads in one of two ways. Attempts at reading have no effects, so it makes no difference when
the second is made. -/
def firstOrFurthest {F α : Type} (first second : Except (Failure F) α) : Except (Failure F) α :=
  firstOrFurthestM (m := Id) first second

section FirstOrFurthest

variable {F α : Type}

@[simp] theorem firstOrFurthest_ok (a : α) (second : Except (Failure F) α) :
    firstOrFurthest (.ok a) second = .ok a := rfl

@[simp] theorem firstOrFurthest_error_ok (e : Failure F) (a : α) :
    firstOrFurthest (.error e) (.ok a) = .ok a := rfl

@[simp] theorem firstOrFurthest_error_error (e e' : Failure F) :
    firstOrFurthest (.error e : Except (Failure F) α) (.error e') = .error (e.further e') := rfl

/-- What is read in one of two ways, has been read in the one or in the other. -/
theorem firstOrFurthest_eq_ok {first second : Except (Failure F) α} {a : α}
    (h : firstOrFurthest first second = .ok a) : first = .ok a ∨ second = .ok a := by
  cases first with
  | ok b => exact .inl h
  | error e =>
    cases second with
    | ok b => exact .inr h
    | error e' => cases h

end FirstOrFurthest

end ChainDiagram
