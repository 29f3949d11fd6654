import ChainDiagram.Command.Report

/-!
# The program

The command line program: it looks at real files, prints, and exits.
-/

set_option autoImplicit false

namespace ChainDiagram

/-- What stands under a path of the file system. A file that cannot even be opened, for want of it
or because its name is none, counts as missing. -/
def lookupFile (path : String) : IO (Option FileEntry) := do
  if path.contains '\x00' then return none
  try
    return some (.file (← IO.FS.readBinFile path))
  catch
    | .noFileOrDirectory .. | .invalidArgument .. | .inappropriateType (some _) .. => return none
    | _ => return some .unreadable

/-- The files and the standard input of the running process. -/
def processSurroundings : Surroundings IO where
  lookup := lookupFile
  standardInput := do (← IO.getStdin).readBinToEnd

/-- Carries out the arguments, prints, and answers the exit code. -/
def runProcess (args : List String) : IO UInt32 := do
  match ← runProgram processSurroundings args with
  | none =>
    IO.eprint helpText
    return 2
  | some outcome =>
    IO.print outcome.output
    match outcome.error with
    | none => pure ()
    | some e => IO.eprintln ("Error: " ++ e.message)
    return outcome.exitCode.toUInt32

end ChainDiagram

/-- The entry point. -/
def main (args : List String) : IO UInt32 := ChainDiagram.runProcess args
