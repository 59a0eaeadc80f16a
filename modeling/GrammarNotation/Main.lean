import GrammarNotation.CommandLine.Command

/-!
# The command line

Reads the arguments and the file, and writes what the command reports.
-/

open GrammarNotation

/-- The bytes of a file of the system. -/
def readFile (name : String) : IO (Except LookUpError (List UInt8)) := do
  try
    let bytes ← IO.FS.readBinFile name
    return .ok bytes.toList
  catch
    | .inappropriateType none .. => return .error .folder
    | .inappropriateType (some _) .. => return .error .notFolder
    | .permissionDenied .. => return .error .denied
    | .invalidArgument .. => return .error .nameTooLong
    | _ => return .error .missing

/-- Runs the command with the given arguments. -/
def main (arguments : List String) : IO UInt32 := do
  let invocation := Invocation.ofArguments arguments
  let found ←
    match invocation with
    | .display file _ => if file = "" then pure (.error .missing) else readFile file
    | _ => pure (.error .missing)
  match invocation.run fun _ => found with
  | .error _ =>
    IO.eprintln "ERROR: embedded null byte"
    return 1
  | .ok report =>
    IO.print report.output
    IO.eprint report.errors
    for notice in Notice.visible false report.notices do
      IO.eprintln (notice.severity.name ++ ": " ++ notice.message)
    return report.code.toUInt32
