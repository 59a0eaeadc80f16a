import GrammarNotation.Text.Lines
import GrammarNotation.Text.Quoted
import GrammarNotation.Token.Basic

/-!
# Faults in a description

What is wrong with a description that cannot be read: the offending token, if there is one, and
what was expected in its place.

## Main definitions

- `Expectation` — what was expected: a phrase of the notation, or one certain token
- `Fault` — a fault of one of five kinds
- `Fault.message` — the fault in one line
- `Fault.report?` — the fault with its file, and with the line and a caret under the column where
  the source is at hand
-/

namespace GrammarNotation

/-- What was expected in place of an offending token. -/
inductive Expectation where
  /-- Some form of words. -/
  | phrase (text : String)
  /-- One certain token. -/
  | token (t : Token)
  deriving DecidableEq

namespace Expectation

/-- An expectation as it is. -/
def text : Expectation → String
  | .phrase s => s
  | .token t => t.shown

/-- An expectation with a phrase put in quotes. -/
def quoted : Expectation → String
  | .phrase s => Text.quoted s
  | .token t => t.shown

end Expectation

/-- The kinds of faults. -/
inductive FaultKind where
  /-- A fault that is not told apart. -/
  | general
  /-- The token cannot stand where it stands. -/
  | unrecognized
  /-- Another token was required. -/
  | wrongToken
  /-- The description ends too early. -/
  | endOfInput
  /-- More groups are open at once than the reader allows. -/
  | nesting
  deriving DecidableEq

/-- The name of a kind of fault, as it stands in reports. -/
def FaultKind.name : FaultKind → String
  | .general => "ParseError"
  | .unrecognized => "ExpressionNotRecognized"
  | .wrongToken => "UnexpectedToken"
  | .endOfInput => "UnexpectedEOF"
  | .nesting => "NestingTooDeep"

/-- A fault in a description. -/
structure Fault where
  kind : FaultKind
  token : Option Token
  /-- What was expected in its place. -/
  expected : Expectation
  deriving DecidableEq

namespace Fault

/-- The token cannot stand where the phrase is expected. -/
def unrecognized (t : Token) (phrase : String) : Fault := ⟨.unrecognized, some t, .phrase phrase⟩

/-- The token stands where a certain symbol is required. -/
def wrongToken (t : Token) (symbol : String) : Fault :=
  ⟨.wrongToken, some t, .token (.ofSymbol symbol)⟩

/-- The description ends where the phrase is expected. -/
def endOfInput (phrase : String) : Fault := ⟨.endOfInput, none, .phrase phrase⟩

/-- The token opens a group inside too many others. -/
def nesting (t : Token) (phrase : String) : Fault := ⟨.nesting, some t, .phrase phrase⟩

/-- The fault in one line. -/
def message (f : Fault) : String :=
  match f.kind with
  | .general | .unrecognized =>
    "unexpected " ++ Token.shown? f.token ++ ", expected " ++ f.expected.text
  | .wrongToken => "unexpected " ++ Token.shown? f.token ++ ", expected " ++ f.expected.quoted
  | .endOfInput => "unexpected end of input, expected " ++ f.expected.text
  | .nesting =>
    "groups nested too deeply at " ++ Token.shown? f.token ++ ", expected " ++ f.expected.text

/-- Where the offending token stands, if that is known. -/
def position? (f : Fault) : Option Position := f.token.bind Token.position

/-- The last line of a report: the name of the kind and the message. -/
def summary (f : Fault) : String := f.kind.name ++ ": " ++ f.message

/-- The report of a fault. It shows the line at fault, with a caret under the column, if both the
position and the source are known, and there is no report if the source has no such line. -/
def report? (f : Fault) (file : String) (source : Option String) : Option String :=
  match f.position?, source with
  | some p, some source =>
    (Text.lineAt? source p.line).map fun line =>
      Text.unlines ["  File " ++ file ++ ", line " ++ Text.decimal p.line, "    " ++ line,
        "    " ++ String.ofList (List.replicate p.column.toNat ' ') ++ "^", f.summary]
  | _, _ => some (Text.unlines ["  File " ++ file, f.summary])

end Fault

end GrammarNotation
