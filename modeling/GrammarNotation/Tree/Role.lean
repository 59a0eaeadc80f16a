import GrammarNotation.Text.Quoted

/-!
# Roles of tree nodes

A node of a description's tree says which part its text plays: the same identifier is the head of
a production in one place and a nonterminal in another. Brackets and bars are nodes too, so that a
flat list of nodes keeps the shape of an expression.

## Main definitions

- `Bracket`, `Mark` — the punctuation that a tree keeps
- `Role` — what a node stands for
- `Role.description` — the line that names a node
- `Role.shown` — the form in which messages show a role
-/

namespace GrammarNotation

/-- The kinds of brackets, by what they make of the expression inside. -/
inductive Bracket where
  /-- Square brackets: the expression may be left out. -/
  | option
  /-- Round brackets: the expression counts as one factor. -/
  | group
  /-- Curly brackets: the expression may be repeated. -/
  | repetition
  deriving DecidableEq

/-- The punctuation that a tree keeps. -/
inductive Mark where
  /-- The bar between two alternatives. -/
  | bar
  | opening (b : Bracket)
  | closing (b : Bracket)
  deriving DecidableEq

/-- The text of an opening bracket. -/
def Bracket.opener : Bracket → String
  | .option => "["
  | .group => "("
  | .repetition => "\x7b"

/-- The text of a closing bracket. -/
def Bracket.closer : Bracket → String
  | .option => "]"
  | .group => ")"
  | .repetition => "\x7d"

/-- The bracket that the text opens. -/
def Bracket.ofOpener? (s : String) : Option Bracket :=
  [Bracket.option, .group, .repetition].find? (·.opener == s)

/-- The text of a mark. -/
def Mark.text : Mark → String
  | .bar => "|"
  | .opening b => b.opener
  | .closing b => b.closer

/-- Every mark. -/
def Mark.all : List Mark :=
  [.bar, .opening .option, .closing .option, .opening .group, .closing .group,
    .opening .repetition, .closing .repetition]

/-- The mark with the given text. -/
def Mark.ofText? (s : String) : Option Mark :=
  Mark.all.find? (·.text == s)

/-- What a node of a tree stands for. -/
inductive Role where
  | root
  | grammar (name : String)
  /-- A token and the pattern that defines it. -/
  | token (name pattern : String)
  | production (number : Int)
  /-- The nonterminal that a production defines. -/
  | head (name : String)
  | terminal (text : String)
  | nonterminal (name : String)
  /-- Code to run. -/
  | action (code : String)
  /-- A bracket or a bar. -/
  | mark (m : Mark)
  /-- No part in particular; such a node has no description. -/
  | blank
  deriving DecidableEq

namespace Role

/-- The line that names a node, if it has one. -/
def description? : Role → Option String
  | .root => some "Root Node"
  | .grammar name => some ("Grammar: " ++ name)
  | .token name pattern => some ("Token: (" ++ name ++ ", " ++ pattern ++ ")")
  | .production number => some ("Production[" ++ Text.decimal number ++ "]")
  | .head name => some ("lhs: " ++ name)
  | .terminal text => some ("Terminal: " ++ text)
  | .nonterminal name => some ("Nonterminal: " ++ name)
  | .action code => some ("Semantic Action: " ++ code)
  | .mark m => some ("Punctuation: " ++ m.text)
  | .blank => none

/-- The line that names a node; empty for a node that has no description. -/
def description (r : Role) : String :=
  r.description?.getD ""

/-- Tells whether a role has a description. -/
def isDescribed (r : Role) : Bool :=
  r.description?.isSome

/-- The form in which messages show a role. -/
def shown : Role → String
  | .root => "Root()"
  | .grammar name => "Grammar(" ++ Text.quoted name ++ ")"
  | .token name pattern => "TokenDef(" ++ Text.quoted name ++ ", " ++ Text.quoted pattern ++ ")"
  | .production number => "Production(" ++ Text.decimal number ++ ")"
  | .head name => "Lhs(" ++ Text.quoted name ++ ")"
  | .terminal text => "Terminal(" ++ Text.quoted text ++ ")"
  | .nonterminal name => "Nonterminal(" ++ Text.quoted name ++ ")"
  | .action code => "SemanticAction(" ++ Text.quoted code ++ ")"
  | .mark m => "Punctuation(" ++ Text.quoted m.text ++ ")"
  | .blank => "GrammarNode()"

end Role

@[simp]
theorem Bracket.ofOpener?_opener (b : Bracket) : Bracket.ofOpener? b.opener = some b := by
  cases b <;> rfl

theorem Bracket.ofOpener?_eq_some_iff {s : String} {b : Bracket} :
    Bracket.ofOpener? s = some b ↔ s = b.opener := by
  constructor
  · intro h
    rw [ofOpener?] at h
    have found := List.find?_some h
    exact (beq_iff_eq.1 found).symm
  · rintro rfl
    exact ofOpener?_opener b

theorem Mark.text_injective {a b : Mark} (h : a.text = b.text) : a = b := by
  have key : ∀ x ∈ Mark.all, ∀ y ∈ Mark.all, x.text = y.text → x = y := by decide
  have mem : ∀ m : Mark, m ∈ Mark.all := by
    rintro (_ | b | b)
    · decide
    all_goals cases b <;> decide
  exact key a (mem a) b (mem b) h

end GrammarNotation
