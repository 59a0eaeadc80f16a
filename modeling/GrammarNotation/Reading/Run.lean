import GrammarNotation.Reading.Reaction

/-!
# Reading a list of tokens

The tokens are fed one after the other to the goals, until the goals are met, a token is refused,
or the tokens come to their end and every goal that is left concludes.

## Main definitions

- `feed` — one token against the goals
- `finish` — the end of the tokens against the goals
- `read` — a list of tokens against the goals

## Design notes

A goal that passes a token on hands it to the goal after it, so `feed` goes down the goals, and
`read` goes down the tokens. Neither looks at more than one token.
-/

namespace GrammarNotation

/-- What becomes of the goals when one token is fed to them. -/
inductive Feed where
  /-- The goals are met, and the token was not used. -/
  | done (d : Draft)
  /-- The token is used up, and these goals are left. -/
  | more (goals : List Goal) (d : Draft)
  /-- The token is refused, having been used up or not. -/
  | failed (f : Fault) (isTaken : Bool) (d : Draft)

/-- Feeds one token to the goals. -/
def feed (m : Mode) : List Goal → Draft → Token → Feed
  | [], d, _ => .done d
  | g :: goals, d, t =>
    match react m (Goal.openGroups goals) g d t with
    | .take new d => .more (new ++ goals) d
    | .pass d => feed m goals d t
    | .refuse f isTaken => .failed f isTaken d

/-- Lets the goals conclude at the end of the tokens: the fault of the first that cannot, and the
draft in the end. -/
def finish (m : Mode) : List Goal → Draft → Option Fault × Draft
  | [], d => (none, d)
  | g :: goals, d =>
    match conclude m g d with
    | .ok d => finish m goals d
    | .error f => (some f, d)

/-- What comes of reading a list of tokens. -/
structure Outcome where
  fault : Option Fault
  draft : Draft
  /-- The tokens that were not used. -/
  rest : List Token

/-- Reads a list of tokens until the goals are met or a fault is found. -/
def read (m : Mode) : List Goal → Draft → List Token → Outcome
  | goals, d, [] => ⟨(finish m goals d).1, (finish m goals d).2, []⟩
  | goals, d, t :: ts =>
    match feed m goals d t with
    | .done d => ⟨none, d, t :: ts⟩
    | .more goals d => read m goals d ts
    | .failed f isTaken d => ⟨some f, d, if isTaken then ts else t :: ts⟩

/-- The tokens that were not used are the last ones. -/
theorem rest_read_suffix (m : Mode) (goals : List Goal) (d : Draft) (ts : List Token) :
    (read m goals d ts).rest <:+ ts := by
  induction ts generalizing goals d with
  | nil => exact List.suffix_refl []
  | cons t ts ih =>
    rw [read]
    split
    · exact List.suffix_refl _
    · exact (ih _ _).trans (List.suffix_cons t ts)
    · split
      · exact List.suffix_cons t ts
      · exact List.suffix_refl _

end GrammarNotation
