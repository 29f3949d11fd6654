import ChainDiagram.Command.Options

/-!
# Commands

The command line of the program: its commands with their options, and how a list of arguments is
read as one of them.
-/

set_option autoImplicit false

namespace ChainDiagram

/-- What is shown of a compiled graph. -/
inductive GraphView where
  /-- How many nodes and links there are. -/
  | census
  /-- The whole graph as JSON. -/
  | whole
  /-- The text listing. -/
  | listing
  deriving DecidableEq, Repr

/-- What the program is asked to do. The input says where the diagram is found. -/
inductive Command where
  | compile (input : String) (view : GraphView) (pretty : Bool)
  | chain (input : String) (start : Nat) (json : Bool)
  | layout (input : String) (config : Option String) (pretty : Bool)
  | validate (input : String) (json : Bool)
  deriving DecidableEq, Repr

namespace Command

/-- The options that stand in front of a command or behind it. They concern log messages, of which
there are none. -/
def globalOptions : List OptionSpec :=
  [⟨"verbose", some 'v', .counter⟩, ⟨"quiet", some 'q', .flag⟩, ⟨"help", some 'h', .stop .help⟩]

/-- The options in front of a command. -/
def topOptions : List OptionSpec := ⟨"version", some 'V', .stop .version⟩ :: globalOptions

/-- Reads a count: decimal digits, which a plus sign may precede, of a number that fits in 64
bits. -/
def readCount? (text : String) : Option Nat :=
  let digits :=
    match text.toList with
    | '+' :: digits => digits
    | digits => digits
  if !digits.isEmpty && digits.all Char.isDigit then
    let n := Nat.ofDigitChars 10 digits 0
    if n < 18446744073709551616 then some n else none
  else none

/-- The names of the commands. -/
inductive Name where
  | compile
  | chain
  | layout
  | validate
  deriving DecidableEq, Repr

/-- The command with a name. -/
def Name.ofString? (name : String) : Option Name :=
  if name = "compile" then some compile
  else if name = "chain" then some chain
  else if name = "layout" then some layout
  else if name = "validate" then some validate
  else none

/-- The options of a command. -/
def Name.options : Name → List OptionSpec
  | compile =>
    [⟨"full", none, .flag⟩, ⟨"text", none, .flag⟩, ⟨"pretty", none, .flag⟩] ++ globalOptions
  | chain =>
    [⟨"start", some 's', .value fun text => (readCount? text).isSome⟩, ⟨"json", none, .flag⟩] ++
      globalOptions
  | layout =>
    [⟨"config", some 'c', .value fun _ => true⟩, ⟨"pretty", none, .flag⟩] ++ globalOptions
  | validate => ⟨"json", none, .flag⟩ :: globalOptions

/-- The command that a name and arguments ask for. Without an input it is the standard input. -/
def ofArguments (name : Name) (arguments : Arguments) : Except Stop Command :=
  let input := arguments.positionals.head?.getD "-"
  match name with
  | .compile =>
    let pretty := arguments.has "pretty"
    match arguments.has "full", arguments.has "text" with
    | true, true => .error .misuse
    | true, false => .ok (.compile input .whole pretty)
    | false, true => .ok (.compile input .listing pretty)
    | false, false => .ok (.compile input .census pretty)
  | .chain =>
    let start := ((arguments.value? "start").bind readCount?).getD 0
    .ok (.chain input start (arguments.has "json"))
  | .layout => .ok (.layout input (arguments.value? "config") (arguments.has "pretty"))
  | .validate => .ok (.validate input (arguments.has "json"))

/-- Reads the arguments behind the word `help`, which may name a command. -/
def helpOn : List String → Except Stop Command
  | [] => .error .help
  | [name] =>
    if (Name.ofString? name).isSome ∨ name = "help" then .error .help else .error .misuse
  | _ => .error .misuse

/-- Reads a command line. -/
def ofArgs (args : List String) : Except Stop Command :=
  match readOptions topOptions .empty none args with
  | .error stop => .error stop
  | .ok (_, false, word :: rest) =>
    if word = "help" then helpOn rest
    else
      match Name.ofString? word with
      | none => .error .misuse
      | some name =>
        match readArguments name.options 1 .empty rest with
        | .error stop => .error stop
        | .ok arguments => ofArguments name arguments
  | .ok _ => .error .misuse

end Command

end ChainDiagram
