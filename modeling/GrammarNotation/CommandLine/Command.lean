import GrammarNotation.CommandLine.Options
import GrammarNotation.Files
import GrammarNotation.Parser

/-!
# The command

The command reads the description in a file and writes its tree. What it reports does not depend
on how the bytes of the file are come by, so they are a parameter.

## Main definitions

- `Report` — everything that a run of the command brings about
- `Invocation.run` — a run of the command
-/

namespace GrammarNotation

/-- Everything that a run of the command brings about. -/
structure Report where
  /-- The exit code: 0 if all went well, 1 for a bad file, 2 for bad arguments. -/
  code : Nat
  output : String := ""
  errors : String := ""
  notices : List Notice := []
  /-- The arguments alone decided, and no file was looked at. -/
  isEarly : Bool := false

/-- The line that shows how the command is used. -/
def usageLine : String := "Usage: ebnf FILE [options]\n"

/-- The help text. -/
def helpText : String :=
  usageLine ++ "\nOptions:\n  -h, --help  show this help message and exit\n"
    ++ "  --tree      Pretty printed BNF parse tree\n"

/-- The report of a run that cannot do its work. -/
def Report.ofFailure (notices : List Notice) (message : String) : Report :=
  { code := 1, notices := notices ++ [.failure message] }

/-- The report on the text of a description. -/
def reportDescription (file source : String) (drawn : Bool) : Report :=
  let (parser, noted) := Parser.ofSource { tracing := { flat := !drawn, drawn } } source
  let r := parser.parse 0
  let notices := noted ++ r.notices
  match r.result with
  | .ok _ => { code := 0, output := r.output, notices }
  | .error f =>
    .ofFailure notices ("Invalid input grammar:\n" ++ (f.report? file source).getD f.summary)

/-- A run of the command, or that the name of the file is impossible. -/
def Invocation.run (lookUp : String → Except LookUpError (List UInt8)) :
    Invocation → Except SourceError Report
  | .help => .ok { code := 0, output := helpText, isEarly := true }
  | .misuse complaint =>
    let errors := usageLine ++ "\nebnf: error: " ++ complaint ++ "\n"
    .ok { code := 2, errors, isEarly := true }
  | .display file drawn =>
    match readDescription lookUp file with
    | .ok source => .ok (reportDescription file source drawn)
    | .error (.file f) => .ok (.ofFailure [] f.message)
    | .error .nulInName => .error .nulInName

end GrammarNotation
