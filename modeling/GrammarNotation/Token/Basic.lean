import GrammarNotation.Lexeme.Basic
import GrammarNotation.Text.Position

/-!
# Tokens

A token is a class and a text, with the position at which it was read, if it was read. Two tokens
agree if class and text are the same; where they stand does not count.

## Main definitions

- `Token` — a token
- `Token.agrees` — sameness of class and text
- `Token.shown` — the form in which messages show a token
-/

namespace GrammarNotation

/-- A classified text, with its place if it has one. -/
structure Token where
  kind : TokenClass
  /-- The text; that of a literal is without its quotes. -/
  text : String
  /-- The place of the first character. -/
  position : Option Position
  deriving DecidableEq

namespace Token

/-- A symbol without a position. -/
def ofSymbol (s : String) : Token := ⟨.symbol, s, none⟩

/-- Tells whether two tokens have the same class and the same text. -/
def agrees (a b : Token) : Bool :=
  a.kind == b.kind && a.text == b.text

/-- Tells whether a token is the given symbol. -/
def isSymbol (t : Token) (s : String) : Bool :=
  t.kind == .symbol && t.text == s

/-- The token without its position. -/
def unplaced (t : Token) : Token := { t with position := none }

/-- The form in which messages show a token. -/
def shown (t : Token) : String :=
  t.kind.name ++ "(" ++ t.text ++ ")"

/-- The form in which messages show a token that may be missing. -/
def shown? (t : Option Token) : String :=
  t.elim "None" shown

theorem agrees_iff {a b : Token} : a.agrees b = true ↔ a.kind = b.kind ∧ a.text = b.text := by
  simp [agrees]

theorem agrees_iff_unplaced {a b : Token} :
    a.agrees b = true ↔ a.unplaced = b.unplaced := by
  simp [agrees, unplaced]

theorem isSymbol_iff {t : Token} {s : String} :
    t.isSymbol s = true ↔ t.kind = .symbol ∧ t.text = s := by
  simp [isSymbol]

@[simp]
theorem isSymbol_ofSymbol (s r : String) : (ofSymbol s).isSymbol r = (s == r) := by
  simp [isSymbol, ofSymbol]

end Token

end GrammarNotation
