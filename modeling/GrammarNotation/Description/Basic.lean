import GrammarNotation.Description.Expression

/-!
# Descriptions

A description is a list of sections. Its tree has a child for each name of a grammar, for each
token and for each production, in order, and numbers the productions one after the other.

## Main definitions

- `Section`, `Description` — what a description says
- `Section.nodes`, `Description.nodes` — the nodes that it puts below the root
- `Description.productionCount` — how many numbers it takes
-/

namespace GrammarNotation

/-- A section of a description. -/
inductive Section where
  | grammar (name : String)
  /-- Tokens with the patterns that define them. -/
  | tokens (entries : List (String × String))
  /-- Nonterminals with the expressions that define them. -/
  | productions (rules : List (String × Expression))

/-- What a description says: its sections in order. -/
abbrev Description := List Section

/-- The node of a production with a given number. -/
def productionNode (number : Nat) (name : String) (body : List Role) : Tree :=
  .node (.production number) ((.head name :: body).map .leaf)

/-- The nodes of productions that are numbered after `counter`. -/
def productionNodes (counter : Nat) : List (String × Expression) → List Tree
  | [] => []
  | (name, e) :: rules =>
    productionNode (counter + 1) name e.roles :: productionNodes (counter + 1) rules

namespace Section

/-- How many numbers the productions of a section take. -/
def productionCount : Section → Nat
  | .productions rules => rules.length
  | _ => 0

/-- The nodes of a section whose productions are numbered after `counter`. -/
def nodes (counter : Nat) : Section → List Tree
  | .grammar name => [.leaf (.grammar name)]
  | .tokens entries => entries.map fun entry => .leaf (.token entry.1 entry.2)
  | .productions rules => productionNodes counter rules

end Section

namespace Description

/-- How many numbers the productions of a description take. -/
def productionCount : Description → Nat
  | [] => 0
  | s :: d => s.productionCount + productionCount d

/-- The nodes of a description whose productions are numbered after `counter`. -/
def nodes (counter : Nat) : Description → List Tree
  | [] => []
  | s :: d => s.nodes counter ++ nodes (counter + s.productionCount) d

/-- The tree of a description whose productions are numbered after `counter`. -/
def tree (counter : Nat) (d : Description) : Tree := .node .root (d.nodes counter)

end Description

end GrammarNotation
