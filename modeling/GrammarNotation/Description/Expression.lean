import GrammarNotation.Tree.Basic

/-!
# Expressions

The body of a production is an expression: alternatives of factors in a row, a factor being a
name, a literal, an action, or an expression in brackets. A tree keeps an expression as a flat
list of nodes, in which brackets and bars show where it is nested and divided.

## Main definitions

- `Factor`, `Term`, `Expression` — the nested form
- `Expression.roles` — the flat form
- `Expression.depth` — how deep brackets are nested

## Design notes

A term holds at least one factor, and an expression at least one term, by construction. So no
alternative is ever empty.
-/

namespace GrammarNotation

mutual

/-- One factor of a term. -/
inductive Factor where
  /-- A reference to a nonterminal. -/
  | nonterminal (name : String)
  | terminal (text : String)
  /-- Code to run. -/
  | action (code : String)
  /-- An expression in brackets. -/
  | enclosed (b : Bracket) (e : Expression)

/-- One or more factors in a row. -/
inductive Term where
  | one (f : Factor)
  | more (f : Factor) (t : Term)

/-- One or more alternatives. -/
inductive Expression where
  | one (t : Term)
  | more (t : Term) (e : Expression)

end

mutual

/-- The flat form of a factor. -/
def Factor.roles : Factor → List Role
  | .nonterminal name => [.nonterminal name]
  | .terminal text => [.terminal text]
  | .action code => [.action code]
  | .enclosed b e => .mark (.opening b) :: (e.roles ++ [.mark (.closing b)])

/-- The flat form of a term: its factors one after the other. -/
def Term.roles : Term → List Role
  | .one f => f.roles
  | .more f t => f.roles ++ t.roles

/-- The flat form of an expression: its terms with bars between them. -/
def Expression.roles : Expression → List Role
  | .one t => t.roles
  | .more t e => t.roles ++ .mark .bar :: e.roles

end

mutual

/-- How deep brackets are nested in a factor. -/
def Factor.depth : Factor → Nat
  | .nonterminal _ | .terminal _ | .action _ => 0
  | .enclosed _ e => e.depth + 1

/-- How deep brackets are nested in a term. -/
def Term.depth : Term → Nat
  | .one f => f.depth
  | .more f t => max f.depth t.depth

/-- How deep brackets are nested in an expression. -/
def Expression.depth : Expression → Nat
  | .one t => t.depth
  | .more t e => max t.depth e.depth

end

theorem Factor.roles_ne_nil (f : Factor) : f.roles ≠ [] := by
  cases f <;> simp [Factor.roles]

theorem Term.roles_ne_nil (t : Term) : t.roles ≠ [] := by
  cases t <;> simp [Term.roles, Factor.roles_ne_nil]

theorem Expression.roles_ne_nil (e : Expression) : e.roles ≠ [] := by
  cases e <;> simp [Expression.roles, Term.roles_ne_nil]

end GrammarNotation
