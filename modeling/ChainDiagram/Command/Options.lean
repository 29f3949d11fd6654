/-!
# Command line options

What may stand on a command line: options with a long name (`--json`), most of them also with a
short one (`-v`), and positional arguments. Short names can be run together (`-vq`), and a value is
given behind an equals sign, as the next argument, or directly behind a short name (`-c=file`,
`-c file`, `-cfile`). After `--` everything is positional.

The options are read from left to right, and the first one that cannot be read, or that asks for
help or for the version, ends the reading.
-/

set_option autoImplicit false

namespace ChainDiagram

/-- Why a command line is not carried out. -/
inductive Stop where
  /-- It cannot be understood. -/
  | misuse
  /-- It asks for help. -/
  | help
  /-- It asks for the version. -/
  | version
  deriving DecidableEq, Repr

/-- What an option does. -/
inductive OptionKind where
  /-- It is there or not, at most once. -/
  | flag
  /-- It may be there any number of times. -/
  | counter
  /-- It has a value, which must be acceptable, and is there at most once. -/
  | value (acceptable : String → Bool)
  /-- It ends the reading. -/
  | stop (reason : Stop)

/-- An option that a command knows. -/
structure OptionSpec where
  long : String
  short : Option Char
  kind : OptionKind

/-- The arguments that have been read. -/
structure Arguments where
  flags : List String
  values : List (String × String)
  positionals : List String
  deriving DecidableEq, Repr

namespace Arguments

/-- No arguments. -/
def empty : Arguments := ⟨[], [], []⟩

/-- Whether a flag is there. -/
def has (arguments : Arguments) (name : String) : Bool := arguments.flags.contains name

/-- The value of an option, if it is there. -/
def value? (arguments : Arguments) (name : String) : Option String :=
  (arguments.values.find? (·.1 = name)).map Prod.snd

/-- Takes a flag. -/
def addFlag (arguments : Arguments) (name : String) : Except Stop Arguments :=
  if arguments.has name then .error .misuse
  else .ok { arguments with flags := arguments.flags ++ [name] }

/-- Takes the value of an option. -/
def addValue (arguments : Arguments) (name value : String) (acceptable : String → Bool) :
    Except Stop Arguments :=
  if (arguments.value? name).isSome || !acceptable value then .error .misuse
  else .ok { arguments with values := arguments.values ++ [(name, value)] }

/-- Takes a positional argument, of which there may be so many. -/
def addPositional (arguments : Arguments) (limit : Nat) (text : String) : Except Stop Arguments :=
  if arguments.positionals.length < limit then
    .ok { arguments with positionals := arguments.positionals ++ [text] }
  else .error .misuse

end Arguments

/-- The effect of an argument: what has been read with it, and the option whose value is to be the
next argument. -/
abbrev Effect : Type := Arguments × Option (String × (String → Bool))

/-- Reads an option without an attached value. -/
def OptionSpec.apply (spec : OptionSpec) (arguments : Arguments) : Except Stop Effect :=
  match spec.kind with
  | .flag => (arguments.addFlag spec.long).map (·, none)
  | .counter => .ok (arguments, none)
  | .value acceptable => .ok (arguments, some (spec.long, acceptable))
  | .stop reason => .error reason

/-- Reads a long option from behind its two hyphens. -/
def readLong (specs : List OptionSpec) (arguments : Arguments) (text : List Char) :
    Except Stop Effect :=
  let name := String.ofList (text.takeWhile (· ≠ '='))
  match specs.find? (·.long = name), text.dropWhile (· ≠ '=') with
  | none, _ => .error .misuse
  | some spec, [] => spec.apply arguments
  | some spec, _ :: value =>
    match spec.kind with
    | .value acceptable =>
      (arguments.addValue spec.long (String.ofList value) acceptable).map (·, none)
    | _ => .error .misuse

/-- Reads short options that are run together. -/
def readShort (specs : List OptionSpec) (arguments : Arguments) :
    List Char → Except Stop Effect
  | [] => .ok (arguments, none)
  | c :: rest =>
    match specs.find? (·.short = some c) with
    | none => .error .misuse
    | some spec =>
      match spec.kind, rest with
      | .value _, [] => spec.apply arguments
      | .value acceptable, '=' :: value =>
        (arguments.addValue spec.long (String.ofList value) acceptable).map (·, none)
      | .value acceptable, value =>
        (arguments.addValue spec.long (String.ofList value) acceptable).map (·, none)
      | _, _ =>
        match spec.apply arguments with
        | .error stop => .error stop
        | .ok (arguments, _) => readShort specs arguments rest

/-- What an argument looks like. A lone hyphen is a positional argument. -/
inductive ArgumentForm where
  | endOfOptions
  | long (text : List Char)
  | short (text : List Char)
  | positional

/-- The form of an argument. -/
def ArgumentForm.of (argument : String) : ArgumentForm :=
  match argument.toList with
  | ['-', '-'] => endOfOptions
  | '-' :: '-' :: text => long text
  | ['-'] => positional
  | '-' :: text => short text
  | _ => positional

/-- What one argument does. -/
inductive ArgumentEffect where
  /-- It is an option, or the value of one. -/
  | taken (effect : Effect)
  /-- It is positional. -/
  | positional
  /-- It ends the options. -/
  | endOfOptions

/-- Reads one argument, given the option in front of it whose value it must be, if there is one. -/
def readArgument (specs : List OptionSpec) (arguments : Arguments)
    (pending : Option (String × (String → Bool))) (argument : String) :
    Except Stop ArgumentEffect :=
  match ArgumentForm.of argument, pending with
  | .positional, none => .ok .positional
  | .positional, some (name, acceptable) =>
    (arguments.addValue name argument acceptable).map fun arguments => .taken (arguments, none)
  | _, some _ => .error .misuse
  | .endOfOptions, none => .ok .endOfOptions
  | .long text, none => (readLong specs arguments text).map .taken
  | .short text, none => (readShort specs arguments text).map .taken

/-- Reads the options in front of the next positional argument. Answers what has been read and the
rest, which is empty or starts with that argument; the truth value says whether `--` stands in front
of the rest. -/
def readOptions (specs : List OptionSpec) (arguments : Arguments)
    (pending : Option (String × (String → Bool))) :
    List String → Except Stop (Arguments × Bool × List String)
  | [] => if pending.isSome then .error .misuse else .ok (arguments, false, [])
  | argument :: rest =>
    match readArgument specs arguments pending argument with
    | .error stop => .error stop
    | .ok (.taken (arguments, pending)) => readOptions specs arguments pending rest
    | .ok .positional => .ok (arguments, false, argument :: rest)
    | .ok .endOfOptions => .ok (arguments, true, rest)

theorem readOptions_le {specs : List OptionSpec} {arguments : Arguments}
    {pending : Option (String × (String → Bool))} {args : List String}
    {result : Arguments × Bool × List String}
    (h : readOptions specs arguments pending args = .ok result) :
    result.2.2.length ≤ args.length := by
  induction args generalizing arguments pending with
  | nil =>
    unfold readOptions at h
    split at h <;> cases h
    exact Nat.le_refl _
  | cons argument rest ih =>
    unfold readOptions at h
    split at h
    · cases h
    · exact Nat.le_succ_of_le (ih h)
    · cases h
      exact Nat.le_refl _
    · cases h
      exact Nat.le_succ _

/-- Reads options and positional arguments in any order, of the latter at most `limit`. -/
def readArguments (specs : List OptionSpec) (limit : Nat) (arguments : Arguments)
    (args : List String) : Except Stop Arguments :=
  match _h : readOptions specs arguments none args with
  | .error stop => .error stop
  | .ok (arguments, true, rest) =>
    rest.foldlM (fun arguments argument => arguments.addPositional limit argument) arguments
  | .ok (arguments, false, []) => .ok arguments
  | .ok (arguments, false, argument :: rest) =>
    match arguments.addPositional limit argument with
    | .error stop => .error stop
    | .ok arguments => readArguments specs limit arguments rest
termination_by args.length
decreasing_by exact readOptions_le _h

end ChainDiagram
