import GrammarNotation.Reading.Run

/-!
# Reading goal after goal

Reading two lists of goals in a row is reading the first one, and then the second one from the
token at which the first one was met. So it makes no difference whether the rules of a description
are read in one go or one at a time.

## Main statements

- `feed_append`, `finish_append` — the same for one token, and for the end of the tokens
- `read_append` — goals in a row

## Design notes

The statements ask that no group is open in the second list, since the depth limit counts the open
groups of both.
-/

namespace GrammarNotation

/-- What comes of reading further goals from where an outcome left off. -/
def Outcome.andThen (o : Outcome) (next : Draft → List Token → Outcome) : Outcome :=
  match o.fault with
  | none => next o.draft o.rest
  | some _ => o

theorem feed_append (m : Mode) {more : List Goal} (closed : Goal.openGroups more = 0)
    (goals : List Goal) (d : Draft) (t : Token) :
    feed m (goals ++ more) d t =
      match feed m goals d t with
      | .done d => feed m more d t
      | .more goals d => .more (goals ++ more) d
      | .failed f isTaken d => .failed f isTaken d := by
  induction goals generalizing d with
  | nil => rfl
  | cons g goals ih =>
    rw [List.cons_append, feed, feed, Goal.openGroups_append, closed, Nat.add_zero]
    cases react m (Goal.openGroups goals) g d t with
    | take new d => simp
    | pass d => exact ih d
    | refuse f isTaken => rfl

theorem finish_append (m : Mode) (goals more : List Goal) (d : Draft) :
    finish m (goals ++ more) d =
      match finish m goals d with
      | (none, d) => finish m more d
      | (some f, d) => (some f, d) := by
  induction goals generalizing d with
  | nil => rfl
  | cons g goals ih =>
    rw [List.cons_append, finish, finish]
    cases conclude m g d with
    | ok d => exact ih d
    | error f => rfl

@[simp]
theorem read_nil (m : Mode) (d : Draft) (ts : List Token) : read m [] d ts = ⟨none, d, ts⟩ := by
  cases ts <;> rfl

/-- Goals that are read in a row are read one list after the other. -/
theorem read_append (m : Mode) {more : List Goal} (closed : Goal.openGroups more = 0)
    (goals : List Goal) (d : Draft) (ts : List Token) :
    read m (goals ++ more) d ts = (read m goals d ts).andThen (read m more) := by
  induction ts generalizing goals d with
  | nil =>
    rw [read, read, finish_append]
    rcases finish m goals d with ⟨_ | f, d⟩ <;> simp [Outcome.andThen, read]
  | cons t ts ih =>
    rw [read, feed_append m closed]
    conv => rhs; rw [read]
    cases feed m goals d t with
    | done d => simp [Outcome.andThen, read]
    | more goals d => exact ih goals d
    | failed f isTaken d => rfl

end GrammarNotation
