import GrammarNotation.Token.Basic
import GrammarNotation.Tree.Basic

/-!
# Comparing and showing values

The values that descriptions are made of can be compared with each other and shown, whatever
kinds they are. Values of different kinds are never the same.

## Main definitions

- `Datum` — a value of any kind
- `Datum.agrees` — sameness, for tokens without regard to their places
- `Datum.shown` — the form in which messages show a value
- `Datum.countDistinct` — how many values of a list are different
-/

namespace GrammarNotation

/-- A value of any kind. -/
inductive Datum where
  | nothing
  | text (s : String)
  | token (t : Token)
  | position (p : Position)
  | role (r : Role)
  | tree (t : Tree)
  deriving DecidableEq

namespace Datum

/-- The value without what does not count in a comparison: the place of a token. -/
def essence : Datum → Datum
  | .token t => .token t.unplaced
  | d => d

/-- Tells whether two values are the same. -/
def agrees (a b : Datum) : Bool :=
  a.essence == b.essence

/-- The form in which messages show a value. -/
def shown : Datum → String
  | .nothing => "None"
  | .text s => Text.quoted s
  | .token t => t.shown
  | .position p => p.text
  | .role r => r.shown
  | .tree t => t.shown

/-- How many values of a list are different. -/
def countDistinct (values : List Datum) : Nat :=
  (values.map essence).eraseDups.length

theorem agrees_iff {a b : Datum} : a.agrees b = true ↔ a.essence = b.essence := by
  simp [agrees]

theorem agrees_token (s t : Token) : (token s).agrees (token t) = s.agrees t := by
  rw [Bool.eq_iff_iff, agrees_iff, Token.agrees_iff_unplaced]
  simp [essence]

end Datum

end GrammarNotation
