import GrammarNotation.Fault
import GrammarNotation.Tree.Role

/-!
# Goals of the reader

A description is read by a list of goals, the first of which says what comes next. The rules of
the notation are:

- a description is any number of sections;
- a grammar section is `grammar`, an identifier and `;`
- a token section is `tokens` and, in braces, any number of identifiers, each followed by `:` and
  a literal;
- a production section is `productions` and, in braces, any number of productions;
- a production is an identifier, `:`, an expression and `;`
- an expression is one or more terms with `|` between them, a term one or more factors;
- a factor is an identifier, a literal, an expression in brackets of one of three kinds, or a
  literal between `{:` and `:}`.

## Main definitions

- `Phrase` — the wording of what is expected, by rule
- `Goal` — one thing that is still to be read or to be done
- `Rule` — a rule of the notation, and the goals that it sets
-/

namespace GrammarNotation

namespace Phrase

/-- What a description consists of. -/
def description : String := "\x7b Grammar | Tokens | Productions \x7d"

/-- What follows the keyword of a grammar section. -/
def grammar : String := "Identifier ';'"

/-- What an entry of a token section looks like. -/
def token : String := "Identifier ':' Literal"

/-- What a production looks like. -/
def production : String := "Identifier ':' Expression ';'"

/-- What a factor looks like. -/
def factor : String :=
  "Identifier | Literal | [ Expression ] | ( Expression ) | \x7b Expression \x7d | "
    ++ "\x7b: CODE_STRING :\x7d"

/-- What follows the opening of an action. -/
def action : String := "CODE_STRING ':\x7d'"

end Phrase

/-- The symbol that opens the body of a section. -/
def sectionOpener : String := "\x7b"

/-- The symbol that closes the body of a section. -/
def sectionCloser : String := "\x7d"

/-- The symbol that opens an action. -/
def actionOpener : String := "\x7b:"

/-- The symbol that closes an action. -/
def actionCloser : String := ":\x7d"

/-- One thing that is still to be read or to be done. -/
inductive Goal where
  /-- Any number of sections, to the end of the description. -/
  | sections
  | grammarName
  /-- A symbol that a strict reader insists on. -/
  | separator (symbol : String)
  /-- The entries of a token section, up to the closing brace. -/
  | entries
  /-- The literal that defines the token of the given name. -/
  | pattern (name : String)
  /-- The productions of a section, up to the closing brace. -/
  | productions
  | production
  /-- One or more alternatives. -/
  | expression
  /-- Further alternatives, each behind a bar. -/
  | alternatives
  /-- One or more factors. -/
  | term
  /-- Further factors. -/
  | factors
  | factor
  | code
  /-- Attach the closing mark of a group. -/
  | closing (b : Bracket)
  /-- Put the production that was read among the nodes of its section. -/
  | endProduction (number : Nat) (name : String)
  /-- Put the nodes of a section into the tree. -/
  | commit
  deriving DecidableEq

/-- Tells whether a goal ends a group, so that the group is still open. -/
def Goal.isClosing : Goal → Bool
  | .closing _ => true
  | _ => false

/-- How many groups are open. -/
def Goal.openGroups (goals : List Goal) : Nat :=
  goals.countP Goal.isClosing

@[simp]
theorem Goal.openGroups_nil : Goal.openGroups [] = 0 := rfl

@[simp]
theorem Goal.openGroups_append (goals more : List Goal) :
    Goal.openGroups (goals ++ more) = Goal.openGroups goals + Goal.openGroups more := by
  simp [Goal.openGroups]

theorem Goal.openGroups_cons (g : Goal) (goals : List Goal) :
    Goal.openGroups (g :: goals) = Goal.openGroups goals + if g.isClosing then 1 else 0 := by
  simp [Goal.openGroups, List.countP_cons]

/-- The rules of the notation. -/
inductive Rule where
  | description
  | grammarSection
  | tokenSection
  | productionSection
  | production
  | expression
  | term
  | factor
  deriving DecidableEq

/-- The goals that a rule sets. The keyword of a section is not part of them. -/
def Rule.goals : Rule → List Goal
  | .description => [.sections]
  | .grammarSection => [.grammarName]
  | .tokenSection => [.separator sectionOpener, .entries, .separator sectionCloser]
  | .productionSection => [.separator sectionOpener, .productions, .separator sectionCloser]
  | .production => [.production]
  | .expression => [.expression]
  | .term => [.term]
  | .factor => [.factor]

end GrammarNotation
