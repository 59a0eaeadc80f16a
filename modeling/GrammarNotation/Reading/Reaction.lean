import GrammarNotation.Reading.Draft
import GrammarNotation.Reading.Goal

/-!
# Reactions of the reader

How the first goal reacts to the next token, or to the end of the description. One token decides:
the goal takes the token and sets further goals, or it is met without the token, which then goes
to the goal after it, or it refuses the token.

## Main definitions

- `Mode` — strict or lenient, and how deep groups may be nested
- `react` — the reaction of a goal to a token
- `conclude` — the reaction of a goal to the end of the description

## Design notes

A lenient reader differs from a strict one in two places only: it does without a separator that
is missing, and it passes over a malformed entry of a token section with a warning.
-/

namespace GrammarNotation

/-- How a description is read. -/
structure Mode where
  /-- Separators and closing brackets must be there, and entries well formed. -/
  strict : Bool := false
  /-- How many groups may be open at once, if there is a limit. -/
  depthLimit : Option Nat := some 329
  deriving DecidableEq

/-- Tells whether one more group may be opened inside `depth` others. -/
def Mode.allows (m : Mode) (depth : Nat) : Bool :=
  m.depthLimit.all (depth < ·)

/-- What a goal makes of a token. -/
inductive Reaction where
  /-- The token is used up, and further goals are set. -/
  | take (goals : List Goal) (d : Draft)
  /-- The goal is met without the token. -/
  | pass (d : Draft)
  /-- The token is refused, having been used up or not. -/
  | refuse (f : Fault) (isTaken : Bool)

/-- Tells whether a factor may start with the token. -/
def startsFactor (t : Token) : Bool :=
  match t.kind with
  | .identifier | .literal => true
  | .symbol => t.text == actionOpener || (Bracket.ofOpener? t.text).isSome
  | _ => false

/-- The reaction of a factor, `depth` groups being open and `after` being set behind it. -/
def reactFactor (m : Mode) (depth : Nat) (after : List Goal) (d : Draft) (t : Token) : Reaction :=
  match t.kind with
  | .identifier => .take after (d.attach (.nonterminal t.text))
  | .literal => .take after (d.attach (.terminal t.text))
  | .symbol =>
    match Bracket.ofOpener? t.text with
    | some b =>
      if m.allows depth then
        .take (.expression :: .separator b.closer :: .closing b :: after)
          (d.attach (.mark (.opening b)))
      else .refuse (.nesting t Phrase.factor) true
    | none =>
      if t.text = actionOpener then .take (.code :: after) d
      else .refuse (.unrecognized t Phrase.factor) true
  | _ => .refuse (.unrecognized t Phrase.factor) true

/-- The reaction of a production, `after` being set behind it. -/
def reactProduction (after : List Goal) (d : Draft) (t : Token) : Reaction :=
  if t.kind = .identifier then
    .take (.separator ":" :: .expression :: .separator ";"
        :: .endProduction (d.counter + 1) t.text :: after)
      (d.beginProduction t.text)
  else .refuse (.unrecognized t Phrase.production) true

/-- The reaction to a section's keyword, or to what stands in its place. -/
def reactSections (d : Draft) (t : Token) : Reaction :=
  match t.kind with
  | .comment => .take [.sections] d
  | .keyword =>
    if t.text = "grammar" then .take (Rule.grammarSection.goals ++ [.commit, .sections]) d
    else if t.text = "tokens" then .take (Rule.tokenSection.goals ++ [.commit, .sections]) d
    else if t.text = "productions" then
      .take (Rule.productionSection.goals ++ [.commit, .sections]) d
    else .refuse (.unrecognized t Phrase.description) true
  | _ => .refuse (.unrecognized t Phrase.description) true

/-- The reaction of the first goal to the next token, `depth` groups being open. -/
def react (m : Mode) (depth : Nat) (g : Goal) (d : Draft) (t : Token) : Reaction :=
  match g with
  | .sections => reactSections d t
  | .grammarName =>
    if t.kind = .identifier then .take [.separator ";"] (d.add (.leaf (.grammar t.text)))
    else .refuse (.unrecognized t Phrase.grammar) true
  | .separator s =>
    if t.isSymbol s then .take [] d
    else if m.strict then .refuse (.wrongToken t s) false
    else .pass d
  | .entries =>
    if t.isSymbol sectionCloser then .pass d
    else if t.kind = .identifier then .take [.separator ":", .pattern t.text, .entries] d
    else if m.strict then .refuse (.unrecognized t Phrase.token) true
    else .take [.entries] (d.note (.entrySkipped t))
  | .pattern name =>
    if t.isSymbol sectionCloser then
      if m.strict then .refuse (.unrecognized t Phrase.token) false
      else .pass (d.note (.entrySkipped t))
    else if t.kind = .literal then .take [] (d.add (.leaf (.token name t.text)))
    else if m.strict then .refuse (.unrecognized t Phrase.token) true
    else .take [] (d.note (.entrySkipped t))
  | .productions =>
    if t.isSymbol sectionCloser then .pass d else reactProduction [.productions] d t
  | .production => reactProduction [] d t
  | .expression => reactFactor m depth [.factors, .alternatives] d t
  | .alternatives =>
    if t.isSymbol Mark.bar.text then .take [.term, .alternatives] (d.attach (.mark .bar))
    else .pass d
  | .term => reactFactor m depth [.factors] d t
  | .factors => if startsFactor t then reactFactor m depth [.factors] d t else .pass d
  | .factor => reactFactor m depth [] d t
  | .code =>
    if t.kind = .literal then .take [.separator actionCloser] (d.attach (.action t.text))
    else .refuse (.unrecognized t Phrase.action) true
  | .closing b => .pass (d.attach (.mark (.closing b)))
  | .endProduction number name => .pass (d.endProduction number name)
  | .commit => .pass d.commit

/-- The reaction of a goal to the end of the description: it is met, or something is missing. -/
def conclude (m : Mode) (g : Goal) (d : Draft) : Except Fault Draft :=
  match g with
  | .sections | .entries | .productions | .alternatives | .factors => .ok d
  | .separator s => if m.strict then .error (.endOfInput (Text.quoted s)) else .ok d
  | .grammarName => .error (.endOfInput Phrase.grammar)
  | .pattern _ => .error (.endOfInput Phrase.token)
  | .production => .error (.endOfInput Phrase.production)
  | .expression | .term | .factor => .error (.endOfInput Phrase.factor)
  | .code => .error (.endOfInput Phrase.action)
  | .closing b => .ok (d.attach (.mark (.closing b)))
  | .endProduction number name => .ok (d.endProduction number name)
  | .commit => .ok d.commit

end GrammarNotation
