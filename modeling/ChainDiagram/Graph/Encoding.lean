import ChainDiagram.Graph
import ChainDiagram.Json.Record
import ChainDiagram.Json.Writer
import ChainDiagram.Json.Reader

/-!
# Graphs in JSON

A graph is written as a record with the single field `nodes`, and a node as a record of its five
fields. Reading checks the types of the fields only: the ids need not fit the indices, and links may
lead nowhere.
-/

set_option autoImplicit false

namespace ChainDiagram

namespace Enclosure

/-- The name of an enclosure in data. -/
def tag : Enclosure → String
  | rectangle => "Rectangle"
  | roundedRectangle => "RoundedRectangle"
  | parallelogram => "Parallelogram"
  | other => "Other"

/-- The enclosure with a name. -/
def ofTag? (tag : String) : Option Enclosure := all.find? (·.tag = tag)

@[simp] theorem ofTag?_tag (e : Enclosure) : ofTag? e.tag = some e := by
  cases e <;> rfl

/-- An enclosure as a JSON value. -/
def toJson (e : Enclosure) : Json := .string e.tag

/-- Reads an enclosure: its name, or its name as the key of an alternative that holds nothing. -/
def ofJson? : Json → Option Enclosure
  | .string tag => ofTag? tag
  | .object [(tag, .null)] => ofTag? tag
  | _ => none

end Enclosure

/-- The names of the fields of a node. -/
def Node.fieldNames : List String := ["id", "varname", "value", "enclosure", "adjacents"]

/-- A node as a JSON value. -/
def Node.toJson (node : Node) : Json :=
  .object (Node.fieldNames.zip
    [.ofNat node.id, .string node.varname, .string node.value, node.enclosure.toJson,
      .array (node.adjacents.map .ofNat)])

/-- Reads a node. -/
def Node.ofJson? (json : Json) : Option Node :=
  match json.fields? Node.fieldNames with
  | some [id, varname, value, enclosure, adjacents] => do
    return ⟨← id.toNat?, ← varname.toText?, ← value.toText?, ← Enclosure.ofJson? enclosure,
      ← adjacents.toList? Json.toNat?⟩
  | _ => none

/-- A graph as a JSON value. -/
def Graph.toJson (g : Graph) : Json :=
  .object [("nodes", .array (g.nodes.toList.map Node.toJson))]

/-- Reads a graph. -/
def Graph.ofJson? (json : Json) : Option Graph :=
  match json.fields? ["nodes"] with
  | some [nodes] => (nodes.toList? Node.ofJson?).map fun nodes => ⟨nodes.toArray⟩
  | _ => none

/-- Reads a graph from a JSON text. -/
def Graph.ofJsonText? (text : String) : Option Graph := (Json.ofText? text).bind Graph.ofJson?

end ChainDiagram
