import ChainDiagram.Diagnostic
import ChainDiagram.Graph.Encoding
import ChainDiagram.Proofs.Json.Value
import Mathlib.Data.List.Nodup

/-!
# Graphs and errors are read back

What a graph or an error looks like in JSON holds all of it. The texts are taken care of by
`ChainDiagram.Proofs.Json.Value`; what is left is to find the fields of a record by their names, and
to read each field as it was written. Numbers are read if they fit in 64 bits, so the graphs and the
errors here are those whose numbers do. Nothing else is asked of a graph: ids may repeat and links
may lead nowhere.

## What is here

* `Json.fields?_object_of_mem`, `Json.fields?_zip`: the fields of a record are found.
* `Graph.FitsWords`, `Diagnostic.FitsWords`: all numbers fit in 64 bits.
* `Graph.ofJson?_toJson`, `Diagnostic.ofJson?_toJson`: values are read back.
* `graphs_and_errors_are_read_back`: texts are read back.
-/

set_option autoImplicit false

namespace ChainDiagram

namespace Json

/-! ## Records and lists -/

/-- A member is found by its key if no other has the same. -/
theorem only?_eq_some_of_mem {members : List (String × Json)} {name : String} {value : Json}
    (hkeys : (members.map Prod.fst).Nodup) (h : (name, value) ∈ members) :
    only? name members = some value := by
  obtain ⟨before, after, rfl⟩ := List.append_of_mem h
  rw [List.map_append, List.map_cons, List.nodup_middle, List.nodup_cons, List.mem_append] at hkeys
  have hnone : ∀ members : List (String × Json), name ∉ members.map Prod.fst →
      members.filter (fun member => decide (member.1 = name)) = [] := by
    intro members hname
    refine List.filter_eq_nil_iff.2 fun member hmember => ?_
    simpa using fun heq : member.1 = name => hname (heq ▸ List.mem_map_of_mem hmember)
  rw [only?, List.filter_append, List.filter_cons, hnone before fun h => hkeys.1 (.inl h),
    hnone after fun h => hkeys.1 (.inr h), if_pos (decide_eq_true rfl)]
  rfl

/-- Some fields of a record are found, in any order and among others. -/
theorem fields?_object_of_mem {members fields : List (String × Json)}
    (hkeys : (members.map Prod.fst).Nodup) (hfields : ∀ field ∈ fields, field ∈ members) :
    (object members).fields? (fields.map Prod.fst) = some (fields.map Prod.snd) := by
  show (fields.map Prod.fst).mapM (only? · members) = some (fields.map Prod.snd)
  rw [List.mapM_map]
  exact mapM_eq_some_of_forall fun field hfield => only?_eq_some_of_mem hkeys (hfields field hfield)

/-- **A record is read back**, if its fields have different names. -/
theorem fields?_zip (names : List String) (values : List Json) (hnames : names.Nodup)
    (hlength : names.length = values.length) :
    (object (names.zip values)).fields? names = some values := by
  have hfst : (names.zip values).map Prod.fst = names := List.map_fst_zip (Nat.le_of_eq hlength)
  have hsnd : (names.zip values).map Prod.snd = values :=
    List.map_snd_zip (Nat.le_of_eq hlength.symm)
  have hall := fields?_object_of_mem (hfst.symm ▸ hnames) fun field (hfield : field ∈ _) => hfield
  rwa [hfst, hsnd] at hall

theorem toList?_array_map {α : Type} {write : α → Json} {read : Json → Option α} {items : List α}
    (h : ∀ a ∈ items, read (write a) = some a) :
    (array (items.map write)).toList? read = some items :=
  mapM_map_eq_some h

end Json

/-! ## Graphs -/

/-- The numbers of a node fit in 64 bits. -/
structure Node.FitsWords (node : Node) : Prop where
  id : node.id < Json.wordBound
  adjacents : ∀ a ∈ node.adjacents, a < Json.wordBound

/-- All ids and links of a graph are numbers of 64 bits. -/
def Graph.FitsWords (g : Graph) : Prop := ∀ node ∈ g.nodes.toList, node.FitsWords

theorem Node.exact_toJson (node : Node) : node.toJson.Exact := by
  simp [toJson, fieldNames, Enclosure.toJson]

theorem Graph.exact_toJson (g : Graph) : g.toJson.Exact := by
  simp [toJson, Node.exact_toJson]

theorem Node.ofJson?_toJson {node : Node} (h : node.FitsWords) :
    Node.ofJson? node.toJson = some node := by
  have hadjacents : (Json.array (node.adjacents.map .ofNat)).toList? Json.toNat? =
      some node.adjacents := Json.toList?_array_map fun a ha => Json.toNat?_ofNat (h.adjacents a ha)
  have hfields : node.toJson.fields? fieldNames = _ := Json.fields?_zip _ _ (by decide) rfl
  rw [ofJson?, hfields]
  simp [Json.toNat?_ofNat h.id, Json.toText?, Enclosure.ofJson?, Enclosure.toJson, hadjacents]

theorem Graph.ofJson?_toJson {g : Graph} (h : g.FitsWords) :
    Graph.ofJson? g.toJson = some g := by
  have hnodes : (Json.array (g.nodes.toList.map Node.toJson)).toList? Node.ofJson? =
      some g.nodes.toList :=
    Json.toList?_array_map fun node hnode => Node.ofJson?_toJson (h node hnode)
  have hfields : g.toJson.fields? ["nodes"] = some [.array (g.nodes.toList.map Node.toJson)] :=
    Json.fields?_zip ["nodes"] [_] (by decide) rfl
  simp only [ofJson?, hfields, hnodes, Option.map_some, Array.toArray_toList]

/-! ## Errors -/

/-- The line and the column of an error fit in 64 bits. -/
structure Diagnostic.FitsWords (e : Diagnostic) : Prop where
  line : e.line < Json.wordBound
  column : ∀ column ∈ e.column?, column < Json.wordBound

theorem Diagnostic.exact_toJson (e : Diagnostic) : e.toJson.Exact := by
  cases e <;> simp [toJson]

theorem Diagnostic.about?_eq_some {line : Nat} (h : line < Json.wordBound)
    (error : Nat → String → Diagnostic) {textName : String} (hname : "line" ≠ textName)
    (text : String) :
    about? error textName (.object [("line", .ofNat line), (textName, .string text)]) =
      some (error line text) := by
  have hfields : (Json.object [("line", .ofNat line), (textName, .string text)]).fields?
      ["line", textName] = some [.ofNat line, .string text] :=
    Json.fields?_zip ["line", textName] [_, _] (by simpa using hname) rfl
  simp [about?, hfields, Json.toNat?_ofNat h, Json.toText?]

theorem Diagnostic.syntaxError?_eq_some {line column : Nat} (hline : line < Json.wordBound)
    (hcolumn : column < Json.wordBound) (message : String) :
    syntaxError? (.object [("line", .ofNat line), ("col", .ofNat column),
      ("message", .string message)]) = some (syntaxError line column message) := by
  have hfields : (Json.object [("line", .ofNat line), ("col", .ofNat column),
      ("message", .string message)]).fields? ["line", "col", "message"] =
        some [.ofNat line, .ofNat column, .string message] :=
    Json.fields?_zip ["line", "col", "message"] [_, _, _] (by decide) rfl
  simp [syntaxError?, hfields, Json.toNat?_ofNat hline, Json.toNat?_ofNat hcolumn, Json.toText?]

theorem Diagnostic.ofJson?_toJson {e : Diagnostic} (h : e.FitsWords) :
    Diagnostic.ofJson? e.toJson = some e := by
  have hline := h.line
  cases e with
  | syntaxError line column message =>
    simp only [ofJson?, toJson, Json.variant?]
    exact syntaxError?_eq_some hline (h.column column rfl) message
  | duplicateDeclaration line name =>
    simp only [ofJson?, toJson, Json.variant?]
    exact about?_eq_some hline _ (by decide) name
  | undefinedVariable line name =>
    simp only [ofJson?, toJson, Json.variant?]
    exact about?_eq_some hline _ (by decide) name
  | literalCollision line text =>
    simp only [ofJson?, toJson, Json.variant?]
    exact about?_eq_some hline _ (by decide) text

/-! ## Texts -/

/-- **Graphs and errors are read back from JSON.** A graph whose numbers fit in 64 bits is read back
from both of its written forms, whether it is well formed or not, and an error is read back from its
compact form. The texts may hold any characters. -/
theorem graphs_and_errors_are_read_back :
    (∀ g : Graph, g.FitsWords → Graph.ofJsonText? g.toJson.compact = some g ∧
      Graph.ofJsonText? g.toJson.pretty = some g) ∧
    ∀ e : Diagnostic, e.FitsWords → Diagnostic.ofJsonText? e.toJson.compact = some e := by
  refine ⟨fun g hg => ⟨?_, ?_⟩, fun e he => ?_⟩
  · rw [Graph.ofJsonText?, g.exact_toJson.ofText?_compact, Option.bind_some,
      Graph.ofJson?_toJson hg]
  · rw [Graph.ofJsonText?, g.exact_toJson.ofText?_pretty, Option.bind_some,
      Graph.ofJson?_toJson hg]
  · rw [Diagnostic.ofJsonText?, e.exact_toJson.ofText?_compact, Option.bind_some,
      Diagnostic.ofJson?_toJson he]

/-- A graph that could not have been built, with the greatest number and with texts that have to be
escaped. -/
def Graph.strange : Graph :=
  ⟨#[⟨18446744073709551615, "a\"b\\c", "\x00\x1f\x7f/\n", .other, [0, 18446744073709551615]⟩,
    ⟨18446744073709551615, "", "é 😀 \t", .roundedRectangle, []⟩]⟩

theorem graphs_and_errors_are_read_back_strange :
    Graph.strange.FitsWords ∧ Graph.ofJsonText? Graph.strange.toJson.compact = some Graph.strange ∧
      Graph.ofJsonText? Graph.strange.toJson.pretty = some Graph.strange ∧
      ∃ e : Diagnostic, e = .syntaxError 18446744073709551615 0 "\"\x0b" ∧ e.FitsWords ∧
        Diagnostic.ofJsonText? e.toJson.compact = some e := by
  have hgraph : Graph.strange.FitsWords := by
    intro node hnode
    simp only [Graph.strange, List.mem_cons, List.not_mem_nil, or_false] at hnode
    rcases hnode with rfl | rfl
    · exact ⟨by decide, by decide⟩
    · exact ⟨by decide, by decide⟩
  have herror : (Diagnostic.syntaxError 18446744073709551615 0 "\"\x0b").FitsWords :=
    ⟨by decide, by rintro column ⟨⟩; decide⟩
  obtain ⟨hcompact, hpretty⟩ := graphs_and_errors_are_read_back.1 Graph.strange hgraph
  exact ⟨hgraph, hcompact, hpretty, _, rfl, herror, graphs_and_errors_are_read_back.2 _ herror⟩

end ChainDiagram
