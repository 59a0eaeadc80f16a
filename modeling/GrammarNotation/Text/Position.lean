import GrammarNotation.Text.Decimal

/-!
# Positions in a source text

A position says where a character stands: its index from zero, its line from one, and its column
from zero. Only the newline character ends a line.

## Main definitions

- `Position.step` — the position after one character
- `Position.advance` — the position after a piece of text

## Design notes

The coordinates are integers, because a position may also be made up by hand, and then any three
numbers are allowed.
-/

namespace GrammarNotation

/-- A place in a source text. -/
structure Position where
  /-- How many characters stand before this place. -/
  index : Int
  /-- The number of the line, the first one being 1. -/
  line : Int
  /-- How many characters of the line stand before this place. -/
  column : Int
  deriving DecidableEq

namespace Position

/-- The place of the first character of a text. -/
def start : Position := ⟨0, 1, 0⟩

/-- The place just after the character that stands at `p`. -/
def step (p : Position) (c : Char) : Position :=
  if c = '\n' then ⟨p.index + 1, p.line + 1, 0⟩ else ⟨p.index + 1, p.line, p.column + 1⟩

/-- The place just after the piece of text that starts at `p`. -/
def advance (p : Position) (piece : List Char) : Position :=
  piece.foldl step p

@[simp]
theorem advance_nil (p : Position) : p.advance [] = p := rfl

@[simp]
theorem advance_cons (p : Position) (c : Char) (cs : List Char) :
    p.advance (c :: cs) = (p.step c).advance cs := rfl

theorem advance_append (p : Position) (xs ys : List Char) :
    p.advance (xs ++ ys) = (p.advance xs).advance ys := by
  simp [advance]

theorem index_advance (p : Position) (cs : List Char) :
    (p.advance cs).index = p.index + cs.length := by
  induction cs generalizing p with
  | nil => simp
  | cons c cs ih =>
    rw [advance_cons, ih, List.length_cons, step]
    split <;> push_cast <;> omega

theorem line_advance (p : Position) (cs : List Char) :
    (p.advance cs).line = p.line + cs.count '\n' := by
  induction cs generalizing p with
  | nil => simp
  | cons c cs ih =>
    rw [advance_cons, ih, step, List.count_cons]
    by_cases h : c = '\n'
    · simp [h]
      omega
    · simp [h]

theorem column_advance_of_notMem {cs : List Char} (h : '\n' ∉ cs) (p : Position) :
    (p.advance cs).column = p.column + cs.length := by
  induction cs generalizing p with
  | nil => simp
  | cons c cs ih =>
    rw [List.mem_cons, not_or] at h
    obtain ⟨other, none⟩ := h
    rw [advance_cons, ih none, step, if_neg (Ne.symm other), List.length_cons]
    push_cast
    omega

/-- Behind a newline a line begins. -/
theorem column_advance_append_newline (p : Position) (cs : List Char) :
    (p.advance (cs ++ ['\n'])).column = 0 := by
  rw [advance_append, advance_cons, advance_nil, step, if_pos rfl]

/-- The text of a position, as it stands in messages. -/
def text (p : Position) : String :=
  "SourcePos(" ++ Text.decimal p.index ++ ", " ++ Text.decimal p.line ++ ", "
    ++ Text.decimal p.column ++ ")"

end Position

end GrammarNotation
