import ChainDiagram.Command
import ChainDiagram.Compile
import ChainDiagram.Layout.Configuration
import ChainDiagram.Graph.Census
import ChainDiagram.Graph.Listing
import ChainDiagram.Layout.Encoding

/-!
# Carrying out commands

What a command prints, given the files and the standard input. The surroundings are a parameter
(`Surroundings`), so that the same definitions describe a run of the program and a run on made-up
files.

## What is here

* `Surroundings`: the files, and the standard input.
* `CommandError`: why a command fails, with its wording.
* `Command.run`: what a command prints and how it ends.
* `runProgram`: the same for a list of arguments.
-/

set_option autoImplicit false

namespace ChainDiagram

/-- What stands under a path. -/
inductive FileEntry where
  | file (content : ByteArray)
  /-- Something that is there but has no content, such as a directory. -/
  | unreadable

/-- What a command can look at. -/
structure Surroundings (m : Type → Type) where
  /-- What stands under a path, if anything does. -/
  lookup : String → m (Option FileEntry)
  standardInput : m ByteArray

/-- The text of a file, if it is one and holds UTF-8. -/
def FileEntry.text? : FileEntry → Option String
  | file content => String.fromUTF8? content
  | unreadable => none

/-! ## Failures -/

/-- Why a command fails. -/
inductive CommandError where
  | unreadableInput
  | unreadableFile (path : String)
  | unreadableConfig (path : String)
  | invalidConfig (path : String)
  | invalidDiagram (error : Diagnostic)
  | missingStart (start size : Nat)
  | danglingLink
  deriving DecidableEq, Repr

/-- The wording of a failure. -/
def CommandError.message : CommandError → String
  | unreadableInput => "Failed to read from stdin"
  | unreadableFile path => "Failed to read file: " ++ path
  | unreadableConfig path => "Failed to read config: " ++ path
  | invalidConfig path => "Invalid config file: " ++ path
  | invalidDiagram error => error.message
  | missingStart start size =>
    "start node " ++ toString start ++ " does not exist (graph has " ++ toString size ++ " nodes)"
  | danglingLink => "a link leads to no node"

/-! ## Reports -/

/-- How a command ends: its exit code, what it prints, and why it fails. -/
structure Outcome where
  exitCode : Nat
  output : String
  error : Option CommandError
  deriving DecidableEq, Repr

namespace Outcome

/-- The end of a command that succeeds with an output. -/
def success (output : String) : Outcome := ⟨0, output, none⟩

/-- The end of a command that fails. -/
def failure (error : CommandError) : Outcome := ⟨1, "", some error⟩

/-- The end of a command that has an output or fails. -/
def ofExcept : Except CommandError String → Outcome
  | .ok output => success output
  | .error error => failure error

end Outcome

/-- A JSON value on lines of its own. -/
def writeJson (pretty : Bool) (json : Json) : String :=
  (if pretty then json.pretty else json.compact) ++ "\n"

/-- The graph of a source. -/
def graphOfSource (source : String) : Except CommandError Graph :=
  (compile source).mapError .invalidDiagram

/-- What is printed of a graph. -/
def Graph.report (g : Graph) (view : GraphView) (pretty : Bool) : String :=
  match view with
  | .listing => g.listing
  | .whole => writeJson pretty g.toJson
  | .census => writeJson pretty g.census

/-- The longest chain from a node, with the texts of its nodes. -/
structure ChainReport where
  start : Nat
  ids : List Nat
  values : List String
  deriving DecidableEq, Repr

/-- The chain from a node of a graph. -/
def Graph.chainReport (g : Graph) (start : Nat) : Except CommandError ChainReport :=
  if start < g.size then
    let ids := g.chainFrom start
    .ok ⟨start, ids, ids.filterMap fun id => (g.node? id).map (·.value)⟩
  else .error (.missingStart start g.size)

/-- A chain as it is printed. -/
def ChainReport.text (report : ChainReport) (json : Bool) : String :=
  if json then
    writeJson true (.object [("start", .ofNat report.start), ("length", .ofNat report.ids.length),
      ("node_ids", .array (report.ids.map .ofNat)),
      ("values", .array (report.values.map .string))])
  else " -> ".intercalate report.values ++ "\n"

/-- What is printed of the layout of a graph. -/
def Graph.layoutReport (g : Graph) (settings : Settings) (pretty : Bool) :
    Except CommandError String :=
  match g.layout? settings with
  | some layout => .ok (writeJson pretty layout.toJson)
  | none => .error .danglingLink

/-- A number that may be missing as a JSON value. -/
def Json.ofNat? : Option Nat → Json
  | some n => .ofNat n
  | none => .null

/-- The verdict on a source as a JSON value. The time is not measured and is given as zero. -/
def verdictJson (verdict : Except Diagnostic Graph) : Json :=
  let fields (valid : Bool) (nodes edges : Nat) (error : Json) : Json :=
    .object [("valid", .bool valid), ("node_count", .ofNat nodes), ("edge_count", .ofNat edges),
      ("error", error), ("compile_time_ms", .ofNat 0)]
  match verdict with
  | .ok g => fields true g.size g.edgeCount .null
  | .error e =>
    fields false 0 0 (.object [("code", .string e.code), ("message", .string e.message),
      ("line", .ofNat e.line), ("column", .ofNat? e.column?)])

/-- The verdict on a source as a text. -/
def verdictText : Except Diagnostic Graph → String
  | .ok g =>
    unlines ["✓ Valid diagram", "  Nodes: " ++ toString g.size, "  Edges: " ++ toString g.edgeCount]
  | .error e =>
    unlines ["✗ Invalid diagram",
      "  line " ++ toString e.line ++ ": [" ++ e.code ++ "] " ++ e.message]

/-- The end of a validation. An invalid diagram is no failure of the command, but it shows in the
exit code. -/
def validation (source : String) (json : Bool) : Outcome :=
  let verdict := compile source
  let output := if json then writeJson true (verdictJson verdict) else verdictText verdict
  match verdict with
  | .ok _ => ⟨0, output, none⟩
  | .error _ => ⟨1, output, none⟩

/-! ## Commands -/

section

variable {m : Type → Type} [Monad m]

/-- The source that an input means: the standard input for a hyphen, the content of a file that is
there, and else the input itself. -/
def loadSource (around : Surroundings m) (input : String) : m (Except CommandError String) := do
  if input = "-" then
    match String.fromUTF8? (← around.standardInput) with
    | some text => return .ok text
    | none => return .error .unreadableInput
  else
    match ← around.lookup input with
    | none => return .ok input
    | some entry =>
      match entry.text? with
      | some text => return .ok text
      | none => return .error (.unreadableFile input)

/-- The settings of a configuration file, or the defaults if none is given. -/
def loadSettings (around : Surroundings m) :
    Option String → m (Except CommandError Settings)
  | none => return .ok {}
  | some path => do
    match (← around.lookup path).bind FileEntry.text? with
    | none => return .error (.unreadableConfig path)
    | some text =>
      match Settings.ofConfig? text with
      | none => return .error (.invalidConfig path)
      | some settings => return .ok settings

/-- Carries out a command. -/
def Command.run (around : Surroundings m) : Command → m Outcome
  | .compile input view pretty => do
    let source ← loadSource around input
    return .ofExcept do
      let g ← graphOfSource (← source)
      return g.report view pretty
  | .chain input start json => do
    let source ← loadSource around input
    return .ofExcept do
      let g ← graphOfSource (← source)
      return (← g.chainReport start).text json
  | .layout input config pretty => do
    match ← loadSettings around config with
    | .error e => return .failure e
    | .ok settings =>
      let source ← loadSource around input
      return .ofExcept do
        let g ← graphOfSource (← source)
        g.layoutReport settings pretty
  | .validate input json => do
    match ← loadSource around input with
    | .error e => return .failure e
    | .ok source => return validation source json

/-- The version of the program as it is printed. -/
def versionText : String := "dg-cli 0.1.0\n"

/-- How to use the program. -/
def helpText : String :=
  unlines [
    "Compile chain-diagram source into graphs, chains, and layouts",
    "",
    "Usage: dg-cli [OPTIONS] <COMMAND>",
    "",
    "Commands:",
    "  compile   Compile source and print the graph [--full | --text] [--pretty]",
    "  chain     Print the longest chain of nodes from a start node [--start <START>] [--json]",
    "  layout    Print the layout of the graph as JSON [--config <CONFIG>] [--pretty]",
    "  validate  Validate source and report the first error [--json]",
    "",
    "Options:",
    "  -v, --verbose  More log messages",
    "  -q, --quiet    No output except errors",
    "  -h, --help     Print help",
    "  -V, --version  Print version"]

/-- How the program ends for a list of arguments. No outcome means that the arguments make no
sense. -/
def runProgram (around : Surroundings m) (args : List String) : m (Option Outcome) := do
  match Command.ofArgs args with
  | .error .misuse => return none
  | .error .help => return some (.success helpText)
  | .error .version => return some (.success versionText)
  | .ok command => return some (← command.run around)

end

end ChainDiagram
