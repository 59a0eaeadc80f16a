import GrammarNotation.Lexeme.Extent
import GrammarNotation.Tree.Basic

/-!
# Writing a tree as a description

Each child of the root is written as a section of its own, all lexemes with one blank between
them. A value is put in double quotes if a lexer reads it back between them, and in single quotes
otherwise.

## Main definitions

- `isLiteralBody` — the texts that a literal may hold between quotes of one kind
- `Tree.lexemes` — the lexemes of a tree
- `Tree.printed` — the text of a tree
-/

namespace GrammarNotation

/-- Tells whether a text, put between the quotes, is read back as one literal. -/
def isLiteralBody (quote : Char) (body : List Char) : Bool :=
  throughQuote? quote (body ++ [quote]) == some (body.length + 1)

/-- A value in quotes. -/
def literalLexeme (value : String) : String :=
  let quote := if isLiteralBody '"' value.toList then '"' else '\''
  String.ofList (quote :: value.toList ++ [quote])

/-- The lexemes of a node that is part of an expression. -/
def Role.lexemes : Role → List String
  | .nonterminal name => [name]
  | .terminal text => [literalLexeme text]
  | .action code => ["\x7b:", literalLexeme code, ":\x7d"]
  | .mark m => [m.text]
  | _ => []

namespace Tree

/-- The lexemes of a child of the root, written as a section of its own. -/
def sectionLexemes : Tree → List String
  | .node (.grammar name) _ => ["grammar", name, ";"]
  | .node (.token name pattern) _ =>
    ["tokens", "\x7b", name, ":", literalLexeme pattern, "\x7d"]
  | .node (.production _) (.node (.head name) _ :: body) =>
    ["productions", "\x7b", name, ":"] ++ body.flatMap (·.role.lexemes) ++ [";", "\x7d"]
  | _ => []

/-- The lexemes of a tree. -/
def lexemes (t : Tree) : List String :=
  t.children.flatMap sectionLexemes

/-- The text of a tree. -/
def printed (t : Tree) : String :=
  String.ofList ([' '].intercalate (t.lexemes.map String.toList))

end Tree

end GrammarNotation
