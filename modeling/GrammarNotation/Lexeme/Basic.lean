/-!
# Lexemes and vocabularies

A description is a sequence of lexemes: short pieces of text, each of one class. Which texts are
symbols and which identifiers are keywords is not fixed; a vocabulary says so.

## Main definitions

- `TokenClass` — the classes of lexemes and tokens
- `Lexeme` — a classified piece of text
- `Vocabulary` — the symbols and the keywords
- `Vocabulary.standard` — the vocabulary of grammar descriptions
-/

namespace GrammarNotation

/-- The classes of lexemes and tokens. A keyword is cut as an identifier and told apart later. -/
inductive TokenClass where
  | keyword
  | identifier
  | literal
  | symbol
  | number
  | comment
  | space
  | invalid
  deriving DecidableEq

namespace TokenClass

/-- The name of a class, as it stands in messages. -/
def name : TokenClass → String
  | .keyword => "keyword"
  | .identifier => "identifier"
  | .literal => "literal"
  | .symbol => "symbol"
  | .number => "number"
  | .comment => "comment"
  | .space => "space"
  | .invalid => "invalid"

/-- Every class, keywords first. -/
def all : List TokenClass :=
  [.keyword, .identifier, .literal, .symbol, .number, .comment, .space, .invalid]

/-- The class with the given name. -/
def ofName? (s : String) : Option TokenClass :=
  all.find? (·.name == s)

@[simp]
theorem ofName?_name (k : TokenClass) : ofName? k.name = some k := by
  cases k <;> rfl

end TokenClass

/-- A classified piece of a source text. -/
structure Lexeme where
  kind : TokenClass
  /-- The characters, quotes and comment marks included. -/
  text : List Char
  deriving DecidableEq

/-- The texts that are symbols, and the identifiers that are keywords. -/
structure Vocabulary where
  /-- The symbols, in any order; where several match, the longest counts. -/
  symbols : List String
  keywords : List String

/-- The vocabulary of grammar descriptions. -/
def Vocabulary.standard : Vocabulary where
  symbols := ["//", "/*", "*/", ":", ",", "->", ".", "\"", ">", "\x7b", "[", "\x7b:", "<", "(",
    "!", "*", "|", "+", "'", "\x7d", "]", ":\x7d", ")", ";"]
  keywords := ["grammar", "tokens", "productions"]

end GrammarNotation
