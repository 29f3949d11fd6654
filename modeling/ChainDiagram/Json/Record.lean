import ChainDiagram.Json

/-!
# Records in JSON

A record with named fields is written as an object. On reading, the fields may stand in any order
and among others that are passed over, but each has to be there once; an array that holds exactly
the values of the fields in their order is read as well. One of several alternatives is written as
an object whose only member names it.
-/

set_option autoImplicit false

namespace ChainDiagram.Json

/-- The value of the only member with a name. -/
def only? (name : String) (members : List (String × Json)) : Option Json :=
  match members.filter (·.1 = name) with
  | [(_, value)] => some value
  | _ => none

/-- The values of the named fields of a record, in the order of the names. -/
def fields? (names : List String) : Json → Option (List Json)
  | object members => names.mapM (only? · members)
  | array items => if items.length = names.length then some items else none
  | _ => none

/-- The name and the content of an alternative. -/
def variant? : Json → Option (String × Json)
  | object [(name, content)] => some (name, content)
  | _ => none

end ChainDiagram.Json
