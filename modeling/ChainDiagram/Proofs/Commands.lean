import Mathlib
import ChainDiagram.Command.Report
import ChainDiagram.Proofs.Encoding
import ChainDiagram.Proofs.Placement

/-!
# What the commands say of a diagram

Four commands look at a diagram, and each finds its own way to an answer: one counts, one lists the
nodes by shape, one lays them out, and one follows links and passes over what is no node. They all
answer for the same graph, or for the same error. What is printed in JSON is judged by what is read
back from it.

## What is here

* `ofText?_writeJson`: what is read back from a value that is printed.
* `Outcome.Prints`, `Outcome.FailsWith`: a command ends with a record in JSON, or with a message.
* `Command.outcome_compile` and its like: how a command on a source ends.
* `ChainReport.Follows`: a chain that is printed leads along links of the graph.
* `Rejected`, `Accepted`: what the commands say of an error, and of a graph.
* `commands_tell_one_story`: every source is rejected or accepted by all of them.
-/

set_option autoImplicit false

namespace ChainDiagram

/-! ## Records -/

/-- A record has the fields, each once. -/
def Json.Has (json : Json) (fields : List (String × Json)) : Prop :=
  json.fields? (fields.map Prod.fst) = some (fields.map Prod.snd)

theorem Json.has_object {members fields : List (String × Json)}
    (hkeys : (members.map Prod.fst).Nodup) (hfields : ∀ field ∈ fields, field ∈ members) :
    (Json.object members).Has fields := Json.fields?_object_of_mem hkeys hfields

theorem Json.only?_reread (name : String) (members : List (String × Json)) :
    only? name (members.map fun member => (member.1, member.2.reread)) =
      (only? name members).map reread := by
  have hfilter : (members.map fun member => (member.1, member.2.reread)).filter (·.1 = name) =
      (members.filter (·.1 = name)).map fun member => (member.1, member.2.reread) := List.filter_map
  rw [only?, only?, hfilter]
  generalize members.filter _ = found
  rcases found with _ | ⟨member, _ | ⟨next, rest⟩⟩ <;> rfl

/-- A record that is read back has the same names. -/
theorem Json.fields?_reread (names : List String) (json : Json) :
    json.reread.fields? names = (json.fields? names).map (List.map reread) := by
  cases json with
  | object members =>
    rw [reread]
    show names.mapM (only? · _) = (names.mapM (only? · members)).map _
    induction names with
    | nil => rfl
    | cons name names ih =>
      rw [List.mapM_cons, List.mapM_cons, ih, only?_reread]
      cases only? name members <;> cases names.mapM (only? · members) <;> rfl
  | array items =>
    rw [reread, fields?, fields?, List.length_map]
    split <;> rfl
  | null | bool | number | string | unpaired =>
    rw [reread]
    rfl

/-- A record that is read back has the fields that are read back as themselves. -/
theorem Json.Has.reread {json : Json} {fields : List (String × Json)} (h : json.Has fields)
    (hexact : ∀ field ∈ fields, field.2.Exact) : json.reread.Has fields := by
  rw [Has, fields?_reread, h, Option.map_some, List.map_map]
  exact congrArg some (List.map_congr_left hexact)

@[simp] theorem Json.exact_ofNat? (n? : Option Nat) : (ofNat? n?).Exact := by
  cases n? with
  | none => exact exact_null
  | some n => exact exact_ofNat n

/-- **What is printed is read back.** -/
theorem ofText?_writeJson (pretty : Bool) (json : Json) :
    Json.ofText? (writeJson pretty json) = some json.reread := by
  have hspace : ∀ c ∈ ['\n'], Json.isSpace c := by simp [Json.isSpace]
  cases pretty with
  | true => exact Json.ofText?_pretty_append hspace json
  | false => exact Json.ofText?_compact_append hspace json

/-- What is printed reads as a record in JSON with the fields. -/
def Outcome.Prints (outcome : Outcome) (fields : List (String × Json)) : Prop :=
  ∃ json, Json.ofText? outcome.output = some json ∧ json.Has fields

theorem Outcome.prints_of_output_eq {outcome : Outcome} {pretty : Bool} {json : Json}
    {fields : List (String × Json)} (houtput : outcome.output = writeJson pretty json)
    (hfields : json.Has fields) (hexact : ∀ field ∈ fields, field.2.Exact) :
    outcome.Prints fields :=
  ⟨json.reread, houtput ▸ ofText?_writeJson pretty json, hfields.reread hexact⟩

/-- The outcome is a failure that is shown as the message. -/
structure Outcome.FailsWith (outcome : Outcome) (message : String) : Prop where
  exitCode_eq : outcome.exitCode = 1
  output_eq : outcome.output = ""
  message_eq : outcome.error.map CommandError.message = some message

/-! ## Outcomes -/

/-- How a command ends, in surroundings that stay as they are. -/
def Command.outcome (around : Surroundings Id) (command : Command) : Outcome :=
  (command.run around).run

section Outcomes

variable {around : Surroundings Id} {input source : String}

theorem Command.outcome_compile (hsource : (loadSource around input).run = .ok source)
    (view : GraphView) (pretty : Bool) :
    (Command.compile input view pretty).outcome around =
      .ofExcept (graphOfSource source >>= fun g => .ok (g.report view pretty)) := by
  show Outcome.ofExcept ((loadSource around input).run >>= _) = _
  rw [hsource]
  rfl

theorem Command.outcome_chain (hsource : (loadSource around input).run = .ok source) (start : Nat)
    (json : Bool) :
    (Command.chain input start json).outcome around =
      .ofExcept (graphOfSource source >>= fun g =>
        g.chainReport start >>= fun report => .ok (report.text json)) := by
  show Outcome.ofExcept ((loadSource around input).run >>= _) = _
  rw [hsource]
  rfl

theorem Command.outcome_layout (hsource : (loadSource around input).run = .ok source)
    {config : Option String} {settings : Settings}
    (hsettings : (loadSettings around config).run = .ok settings) (pretty : Bool) :
    (Command.layout input config pretty).outcome around =
      .ofExcept (graphOfSource source >>= fun g => g.layoutReport settings pretty) := by
  have hsettings' : loadSettings around config = pure (.ok settings) := hsettings
  rw [Command.outcome, Command.run, hsettings']
  show Outcome.ofExcept ((loadSource around input).run >>= _) = _
  rw [hsource]
  rfl

theorem Command.outcome_validate (hsource : (loadSource around input).run = .ok source)
    (json : Bool) :
    (Command.validate input json).outcome around = validation source json := by
  have hsource' : loadSource around input = pure (.ok source) := hsource
  rw [Command.outcome, Command.run, hsource']
  rfl

end Outcomes

/-! ## Errors -/

section Rejected

variable {around : Surroundings Id} {input source : String} {e : Diagnostic}

/-- A command that needs the graph fails with the error of the source, whatever it would do with the
graph. -/
theorem Outcome.failsWith_of_error (h : compile source = .error e)
    (answer : Graph → Except CommandError String) :
    (Outcome.ofExcept (graphOfSource source >>= answer)).FailsWith e.message := by
  rw [graphOfSource, h]
  exact ⟨rfl, rfl, rfl⟩

/-- **All commands reject a source for the same error.** -/
structure Rejected (around : Surroundings Id) (input : String) (e : Diagnostic) : Prop where
  compile : ∀ view pretty,
    ((Command.compile input view pretty).outcome around).FailsWith e.message
  chain : ∀ start json, ((Command.chain input start json).outcome around).FailsWith e.message
  layout : ∀ config settings, (loadSettings around config).run = .ok settings → ∀ pretty,
    ((Command.layout input config pretty).outcome around).FailsWith e.message
  validate_exitCode : ∀ json, ((Command.validate input json).outcome around).exitCode = 1
  validate_json : ∃ error,
    ((Command.validate input true).outcome around).Prints
        [("valid", .bool false), ("error", error)] ∧
      error.Has [("code", .string e.code), ("message", .string e.message), ("line", .ofNat e.line),
        ("column", .ofNat? e.column?)]
  validate_text : ((Command.validate input false).outcome around).output =
    unlines ["✗ Invalid diagram",
      "  line " ++ toString e.line ++ ": [" ++ e.code ++ "] " ++ e.message]

theorem rejected_of_error (hsource : (loadSource around input).run = .ok source)
    (h : compile source = .error e) : Rejected around input e where
  compile view pretty := by
    rw [Command.outcome_compile hsource]
    exact Outcome.failsWith_of_error h _
  chain start json := by
    rw [Command.outcome_chain hsource]
    exact Outcome.failsWith_of_error h _
  layout config settings hsettings pretty := by
    rw [Command.outcome_layout hsource hsettings]
    exact Outcome.failsWith_of_error h _
  validate_exitCode json := by
    rw [Command.outcome_validate hsource, validation, h]
  validate_json := by
    rw [Command.outcome_validate hsource, validation, h]
    exact ⟨_, Outcome.prints_of_output_eq rfl (Json.has_object (by simp) (by simp)) (by simp),
      Json.has_object (by simp) fun _ => id⟩
  validate_text := by
    rw [Command.outcome_validate hsource, validation, h]
    rfl

end Rejected

/-! ## Chains -/

/-- The chain leads from its start along links of the graph, and shows the texts of its nodes. -/
structure ChainReport.Follows (report : ChainReport) (g : Graph) : Prop where
  head?_ids : report.ids.head? = some report.start
  length_values : report.values.length = report.ids.length
  value : ∀ (i id : Nat), report.ids[i]? = some id →
    ∃ node ∈ g.nodes.toList, node.id = id ∧ report.values[i]? = some node.value
  links : report.ids.IsChain fun a b => (a, b) ∈ g.edges

section Chains

variable {g : Graph}

theorem Graph.WellFormed.mem_edges (h : g.WellFormed) {a b : Nat} (hlink : g.LeadsTo a b) :
    (a, b) ∈ g.edges := by
  obtain ⟨node, hnode, hb⟩ := hlink
  refine List.mem_flatMap.2 ⟨node, Graph.mem_nodes_iff.2 ⟨a, hnode⟩, ?_⟩
  rw [h.id a node hnode]
  exact List.mem_map_of_mem hb

/-- The texts of nodes that are there, none of which is passed over. -/
theorem Graph.exists_map_eq_filterMap {ids : List Nat} (h : ∀ id ∈ ids, id < g.size) :
    ∃ shown : Nat → String,
      (ids.filterMap fun id => (g.node? id).map (·.value)) = ids.map shown ∧
        ∀ id ∈ ids, ∃ node, g.node? id = some node ∧ shown id = node.value := by
  have hnode : ∀ id ∈ ids, ∃ node, g.node? id = some node := fun id hid =>
    Option.isSome_iff_exists.1 (Graph.node?_isSome_iff.2 (h id hid))
  refine ⟨fun id => ((g.node? id).map (·.value)).getD "", ?_, fun id hid => ?_⟩
  · refine List.filterMap_eq_map_iff_forall_eq_some.2 fun id hid => ?_
    obtain ⟨node, hnode⟩ := hnode id hid
    rw [hnode, Option.map_some, Option.getD_some]
  · obtain ⟨node, hnode⟩ := hnode id hid
    refine ⟨node, hnode, ?_⟩
    show ((g.node? id).map (·.value)).getD "" = node.value
    rw [hnode, Option.map_some, Option.getD_some]

/-- **The chain from a node follows the links.** The search answers nodes of the graph only, so each
shows its text. -/
theorem Graph.WellFormed.exists_chainReport (h : g.WellFormed) {start : Nat}
    (hstart : start < g.size) :
    ∃ report, g.chainReport start = .ok report ∧ report.start = start ∧ report.Follows g := by
  obtain ⟨tail, hchain, hoptimal⟩ := Graph.longestChain_eq_cons [] hstart
  have hids : g.chainFrom start = start :: tail := hchain
  have hknown : ∀ id ∈ g.chainFrom start, id < g.size := hids ▸ hoptimal.admissible.known
  have hlinks : (g.chainFrom start).IsChain g.LeadsTo := hids ▸ hoptimal.admissible.links
  obtain ⟨shown, hvalues, hshown⟩ := g.exists_map_eq_filterMap hknown
  refine ⟨_, if_pos hstart, rfl, ?_, ?_, fun i id hid => ?_, ?_⟩
  · exact hids ▸ List.head?_cons
  · exact hvalues ▸ List.length_map shown
  · obtain ⟨node, hnode, hvalue⟩ := hshown id (List.mem_of_getElem? hid)
    refine ⟨node, Graph.mem_nodes_iff.2 ⟨id, hnode⟩, h.id id node hnode, ?_⟩
    rw [hvalues, List.getElem?_map, hid, Option.map_some, hvalue]
  · exact hlinks.imp fun a b hlink => h.mem_edges hlink

theorem Graph.chainReport_of_le {start : Nat} (h : g.size ≤ start) :
    g.chainReport start = .error (.missingStart start g.size) := if_neg (Nat.not_lt.2 h)

end Chains

/-! ## Graphs -/

section Accepted

variable {around : Surroundings Id} {input source : String} {g : Graph}

/-- A command that needs the graph answers for the graph of the source. -/
theorem Outcome.ofExcept_of_ok (h : compile source = .ok g)
    (answer : Graph → Except CommandError String) :
    Outcome.ofExcept (graphOfSource source >>= answer) = .ofExcept (answer g) := by
  rw [graphOfSource, h]
  rfl

/-- **All commands show the same graph**: it has the same numbers of nodes and links everywhere, and
the chains lead along its links. -/
structure Accepted (around : Surroundings Id) (input : String) (g : Graph) : Prop where
  whole : ∀ pretty, ∃ output, (Command.compile input .whole pretty).outcome around =
    .success output ∧ Json.ofText? output = some g.toJson
  /-- The nodes are counted once more by their shapes. -/
  census : ∀ pretty, ∃ rectangles roundedRectangles parallelograms others,
    ((Command.compile input .census pretty).outcome around).Prints
        [("node_count", .ofNat g.size), ("edge_count", .ofNat g.edgeCount),
          ("rectangle_count", .ofNat rectangles),
          ("rounded_rectangle_count", .ofNat roundedRectangles),
          ("parallelogram_count", .ofNat parallelograms), ("other_count", .ofNat others)] ∧
      rectangles + roundedRectangles + parallelograms + others = g.size
  layout : ∀ config settings, (loadSettings around config).run = .ok settings → ∀ pretty,
    ∃ stats, ((Command.layout input config pretty).outcome around).Prints [("stats", stats)] ∧
      stats.Has [("node_count", .ofNat g.size), ("edge_count", .ofNat g.edgeCount)]
  validate_json : ((Command.validate input true).outcome around).Prints
    [("valid", .bool true), ("node_count", .ofNat g.size), ("edge_count", .ofNat g.edgeCount),
      ("error", .null)]
  validate_text : ((Command.validate input false).outcome around).output =
    unlines ["✓ Valid diagram", "  Nodes: " ++ toString g.size,
      "  Edges: " ++ toString g.edgeCount]
  chain_exitCode : ∀ start json,
    ((Command.chain input start json).outcome around).exitCode ≠ 0 ↔ g.size ≤ start
  chain : ∀ start < g.size, ∃ report : ChainReport, report.start = start ∧ report.Follows g ∧
    ((Command.chain input start true).outcome around).Prints
      [("start", .ofNat start), ("length", .ofNat report.ids.length),
        ("node_ids", .array (report.ids.map .ofNat)),
        ("values", .array (report.values.map .string))] ∧
    ((Command.chain input start false).outcome around).output =
      " -> ".intercalate report.values ++ "\n"

/-- A layout says how many nodes and links it shows. Its bounds may be read back as other decimals,
but these numbers are not. -/
theorem Layout.Shows.exists_stats {layout : Layout} (h : layout.Shows g) :
    ∃ stats, layout.toJson.Has [("stats", stats)] ∧ stats.Exact ∧
      stats.Has [("node_count", .ofNat g.size), ("edge_count", .ofNat g.edgeCount)] := by
  have hedges : layout.edges.length = g.edgeCount := by
    rw [← Graph.length_edges, ← h.edges, List.length_map]
  rw [← h.length_nodes, ← hedges]
  exact ⟨.object [("node_count", .ofNat layout.nodes.length),
      ("edge_count", .ofNat layout.edges.length),
      ("chain_length", .ofNat layout.placement.chainLength),
      ("chain_search_skipped", .bool layout.placement.chainSkipped)],
    Json.has_object (by simp) (by simp), by simp, Json.has_object (by simp) (by simp)⟩

theorem accepted_of_ok (hsource : (loadSource around input).run = .ok source)
    (h : compile source = .ok g) : Accepted around input g where
  whole pretty := by
    rw [Command.outcome_compile hsource, Outcome.ofExcept_of_ok h]
    refine ⟨writeJson pretty g.toJson, rfl, ?_⟩
    rw [ofText?_writeJson, g.exact_toJson]
  census pretty := by
    rw [Command.outcome_compile hsource, Outcome.ofExcept_of_ok h]
    exact ⟨_, _, _, _, Outcome.prints_of_output_eq rfl (Json.has_object (by simp) (by simp))
      (by simp), g.countOf_add⟩
  layout config settings hsettings pretty := by
    obtain ⟨layout, hlayout, hshows, -⟩ := (compile_built h).wellFormed.exists_layout? settings
    obtain ⟨stats, hstats, hexact, hcounts⟩ := hshows.exists_stats
    rw [Command.outcome_layout hsource hsettings, Outcome.ofExcept_of_ok h, Graph.layoutReport,
      hlayout]
    exact ⟨stats, Outcome.prints_of_output_eq rfl hstats (by simpa using hexact), hcounts⟩
  validate_json := by
    rw [Command.outcome_validate hsource, validation, h]
    exact Outcome.prints_of_output_eq rfl (Json.has_object (by simp) (by simp)) (by simp)
  validate_text := by
    rw [Command.outcome_validate hsource, validation, h]
    rfl
  chain_exitCode start json := by
    rw [Command.outcome_chain hsource, Outcome.ofExcept_of_ok h]
    rcases Nat.lt_or_ge start g.size with hlt | hge
    · obtain ⟨report, hreport, -⟩ := (compile_built h).wellFormed.exists_chainReport hlt
      rw [hreport]
      exact iff_of_false (fun hne => hne rfl) (Nat.not_le.2 hlt)
    · rw [Graph.chainReport_of_le hge]
      exact iff_of_true Nat.one_ne_zero hge
  chain start hstart := by
    obtain ⟨report, hreport, rfl, hfollows⟩ :=
      (compile_built h).wellFormed.exists_chainReport hstart
    refine ⟨report, rfl, hfollows, ?_, ?_⟩
    · rw [Command.outcome_chain hsource, Outcome.ofExcept_of_ok h, hreport]
      exact Outcome.prints_of_output_eq rfl (Json.has_object (by simp) fun _ => id) (by simp)
    · rw [Command.outcome_chain hsource, Outcome.ofExcept_of_ok h, hreport]
      rfl

end Accepted

/-! ## One story -/

section Story

variable {around : Surroundings Id} {input source : String}

/-- What is told of a source decides how a command ends. -/
theorem exitCode_eq_zero_iff {outcome : Outcome}
    (hok : ∀ g, compile source = .ok g → outcome.exitCode = 0)
    (herror : ∀ e, compile source = .error e → outcome.exitCode = 1) :
    outcome.exitCode = 0 ↔ ∃ g, compile source = .ok g := by
  cases h : compile source with
  | ok g => exact iff_of_true (hok g h) ⟨g, rfl⟩
  | error e =>
    refine iff_of_false (fun hzero => ?_) nofun
    exact absurd (hzero.symm.trans (herror e h)) Nat.zero_ne_one

/-- **Every command tells the same story of a source**, wherever the source comes from. It is valid
for all of them or for none. If it is not, they show the same error, and if it is, they show the
same graph. -/
theorem commands_tell_one_story (hsource : (loadSource around input).run = .ok source) :
    (∀ json, ((Command.validate input json).outcome around).exitCode = 0 ↔
      ∃ g, compile source = .ok g) ∧
    (∀ view pretty, ((Command.compile input view pretty).outcome around).exitCode = 0 ↔
      ∃ g, compile source = .ok g) ∧
    (∀ pretty, ((Command.layout input none pretty).outcome around).exitCode = 0 ↔
      ∃ g, compile source = .ok g) ∧
    (∀ e, compile source = .error e → Rejected around input e) ∧
    ∀ g, compile source = .ok g → Accepted around input g := by
  have hrejected : ∀ e, compile source = .error e → Rejected around input e :=
    fun e => rejected_of_error hsource
  refine ⟨fun json => exitCode_eq_zero_iff (fun g h => ?_)
      fun e h => (hrejected e h).validate_exitCode json,
    fun view pretty => exitCode_eq_zero_iff (fun g h => ?_)
      fun e h => ((hrejected e h).compile view pretty).exitCode_eq,
    fun pretty => exitCode_eq_zero_iff (fun g h => ?_)
      fun e h => ((hrejected e h).layout none {} rfl pretty).exitCode_eq,
    hrejected, fun g => accepted_of_ok hsource⟩
  · rw [Command.outcome_validate hsource, validation, h]
  · rw [Command.outcome_compile hsource, Outcome.ofExcept_of_ok h]
    rfl
  · -- The command fails if there is no layout, but a graph that is compiled has one.
    obtain ⟨layout, hlayout, -⟩ := (compile_built h).wellFormed.exists_layout? {}
    rw [Command.outcome_layout hsource rfl, Outcome.ofExcept_of_ok h, Graph.layoutReport, hlayout]
    rfl

end Story

/-- Surroundings without any files, where an input is its own source. -/
def Surroundings.bare : Surroundings Id := ⟨fun _ => none, ByteArray.empty⟩

theorem loadSource_bare {input : String} (h : input ≠ "-") :
    (loadSource .bare input).run = .ok input := by
  rw [loadSource, if_neg h]
  rfl

/-- The graph of a link between two literals. -/
def Graph.oneLink : Graph :=
  ⟨#[⟨0, "28034", "a", .rectangle, [1]⟩, ⟨1, "12378", "b", .roundedRectangle, []⟩]⟩

theorem compile_link : compile "[\"a\"] -> (\"b\")" = .ok .oneLink := by
  have hgaps : ∀ gap ∈ ([[], [], [], [' '], [' ']] : List Line), Blanks gap := by
    simp [Blanks, isBlank]
  have hread : Chain.read "[\"a\"] -> (\"b\")".toList =
      .ok ⟨[⟨.rectangle, .literal "a"⟩, ⟨.roundedRectangle, .literal "b"⟩], [.forward]⟩ :=
    Chain.read_eq_ok_iff.2 ⟨⟨rfl, by simp [Label.Writable, Line.Quotable]⟩, spelled_layOut hgaps⟩
  have hlines : sourceLines "[\"a\"] -> (\"b\")" =
      [⟨1, 0, "[\"a\"] -> (\"b\")".toList⟩] := by rfl
  rw [compile, hlines]
  simp only [List.foldlM_cons, Draft.readLine, Statement.read_eq_chain_iff.2 hread]
  rfl

theorem Graph.chainReport_oneLink : Graph.oneLink.chainReport 0 = .ok ⟨0, [0, 1], ["a", "b"]⟩ := by
  have hchain : Graph.oneLink.chainFrom 0 = [0, 1] := by cbv
  rw [chainReport, if_pos (by decide), hchain]
  rfl

theorem compile_half_link : compile "[\"a\"] ->" =
    .error (.syntaxError 1 9 "dangling link") := by
  have hread : Statement.read "[\"a\"] ->".toList = .error ⟨.danglingLink, 8⟩ := by cbv
  have hlines : sourceLines "[\"a\"] ->" = [⟨1, 0, "[\"a\"] ->".toList⟩] := by rfl
  rw [compile, hlines]
  simp only [List.foldlM_cons, Draft.readLine, hread]
  rfl

/-- One link is a diagram, and half a link is none. -/
theorem commands_tell_one_story_inline :
    (Accepted .bare "[\"a\"] -> (\"b\")" .oneLink ∧
      ((Command.validate "[\"a\"] -> (\"b\")" false).outcome .bare).exitCode = 0 ∧
      ((Command.validate "[\"a\"] -> (\"b\")" true).outcome .bare).output =
        unlines ["\x7b", "  \"valid\": true,", "  \"node_count\": 2,", "  \"edge_count\": 1,",
          "  \"error\": null,", "  \"compile_time_ms\": 0", "\x7d"] ∧
      ((Command.compile "[\"a\"] -> (\"b\")" .census false).outcome .bare).output =
        "\x7b\"edge_count\":1,\"node_count\":2,\"other_count\":0,\"parallelogram_count\":0," ++
          "\"rectangle_count\":1,\"rounded_rectangle_count\":1\x7d\n" ∧
      ((Command.compile "[\"a\"] -> (\"b\")" .whole false).outcome .bare).output =
        "\x7b\"nodes\":[\x7b\"id\":0,\"varname\":\"28034\",\"value\":\"a\"," ++
          "\"enclosure\":\"Rectangle\",\"adjacents\":[1]\x7d," ++
          "\x7b\"id\":1,\"varname\":\"12378\",\"value\":\"b\"," ++
          "\"enclosure\":\"RoundedRectangle\",\"adjacents\":[]\x7d]\x7d\n" ∧
      ((Command.chain "[\"a\"] -> (\"b\")" 0 true).outcome .bare).output =
        unlines ["\x7b", "  \"start\": 0,", "  \"length\": 2,",
          "  \"node_ids\": [", "    0,", "    1", "  ],",
          "  \"values\": [", "    \"a\",", "    \"b\"", "  ]", "\x7d"]) ∧
    Rejected .bare "[\"a\"] ->" (.syntaxError 1 9 "dangling link") ∧
      ((Command.validate "[\"a\"] ->" true).outcome .bare).exitCode ≠ 0 ∧
      ((Command.validate "[\"a\"] ->" true).outcome .bare).output =
        unlines ["\x7b", "  \"valid\": false,", "  \"node_count\": 0,", "  \"edge_count\": 0,",
          "  \"error\": \x7b", "    \"code\": \"diagram/error/syntax\",",
          "    \"message\": \"SyntaxError<Line 1, Col 9>: dangling link\",",
          "    \"line\": 1,", "    \"column\": 9", "  \x7d,",
          "  \"compile_time_ms\": 0", "\x7d"] := by
  have hsource : (loadSource .bare "[\"a\"] -> (\"b\")").run = .ok "[\"a\"] -> (\"b\")" :=
    loadSource_bare (by decide)
  have hsource' : (loadSource .bare "[\"a\"] ->").run = .ok "[\"a\"] ->" :=
    loadSource_bare (by decide)
  obtain ⟨hvalidate, -, -, -, haccepted⟩ := commands_tell_one_story hsource
  obtain ⟨hvalidate', -, -, hrejected, -⟩ := commands_tell_one_story hsource'
  refine ⟨⟨haccepted _ compile_link, (hvalidate false).2 ⟨_, compile_link⟩, ?_, ?_, ?_, ?_⟩,
    hrejected _ compile_half_link, fun hzero => ?_, ?_⟩
  · rw [Command.outcome_validate hsource, validation, compile_link]
    decide +kernel
  · rw [Command.outcome_compile hsource, Outcome.ofExcept_of_ok compile_link]
    decide +kernel
  · rw [Command.outcome_compile hsource, Outcome.ofExcept_of_ok compile_link]
    decide +kernel
  · rw [Command.outcome_chain hsource, Outcome.ofExcept_of_ok compile_link,
      Graph.chainReport_oneLink]
    decide +kernel
  · obtain ⟨g, hg⟩ := (hvalidate' true).1 hzero
    exact nomatch compile_half_link.symm.trans hg
  · rw [Command.outcome_validate hsource', validation, compile_half_link]
    decide +kernel

end ChainDiagram
