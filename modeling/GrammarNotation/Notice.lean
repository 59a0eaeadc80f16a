import GrammarNotation.Text.Quoted
import GrammarNotation.Token.Basic

/-!
# Notices

What is noted while a description is read or a command is run, in the order in which it happens.

## Main definitions

- `Notice` — one thing worth noting
- `Notice.severity`, `Notice.message` — how grave it is, and its wording
- `Notice.visible` — the notices that are shown
-/

namespace GrammarNotation

/-- How grave a notice is. -/
inductive Severity where
  /-- Of use only to find out what goes on inside. -/
  | debug
  /-- Something was passed over. -/
  | warning
  /-- The work could not be done. -/
  | error
  deriving DecidableEq

/-- The name of a severity, as it stands in front of notices. -/
def Severity.name : Severity → String
  | .debug => "DEBUG"
  | .warning => "WARNING"
  | .error => "ERROR"

/-- One thing worth noting. -/
inductive Notice where
  /-- A character that belongs to no lexeme. -/
  | invalidCharacter (t : Token)
  /-- A token about to be read. -/
  | tokenListed (t : Token)
  /-- A production that was read to its end. -/
  | productionRead (number : Nat) (name : String)
  /-- A token at which a malformed token definition was passed over. -/
  | entrySkipped (t : Token)
  /-- A failure, in words. -/
  | failure (message : String)
  deriving DecidableEq

namespace Notice

/-- How grave a notice is. -/
def severity : Notice → Severity
  | .invalidCharacter _ | .tokenListed _ | .productionRead _ _ => .debug
  | .entrySkipped _ => .warning
  | .failure _ => .error

/-- The form in which notices show a place that may be unknown. -/
def placeText (p : Option Position) : String := p.elim "None" Position.text

/-- The wording of a notice. -/
def message : Notice → String
  | .invalidCharacter t =>
    "Invalid character " ++ Text.quoted t.text ++ " at line "
      ++ t.position.elim "None" fun p => Text.decimal p.line
  | .tokenListed t => placeText t.position ++ " " ++ t.shown
  | .productionRead number name =>
    "Parsed production " ++ Text.decimal number ++ " (" ++ name ++ ")"
  | .entrySkipped t =>
    "Skipping malformed token definition at " ++ t.shown ++ " (" ++ placeText t.position ++ ")"
  | .failure message => message

/-- The notices that are shown: all of them, or all but those for finding out what goes on. -/
def visible (verbose : Bool) (notices : List Notice) : List Notice :=
  notices.filter fun n => verbose || n.severity != .debug

/-- The notices about characters among the tokens that belong to no lexeme. -/
def ofTokens (tokens : List Token) : List Notice :=
  (tokens.filter (·.kind == .invalid)).map .invalidCharacter

end Notice

end GrammarNotation
