import GrammarNotation.Notice
import GrammarNotation.Tree.Basic

/-!
# Drafts

What has been built so far while a description is being read. The nodes of a section join the
tree only when the section is complete.

## Main definitions

- `Draft` — the tree so far, and what is in the making
- `Draft.attach`, `Draft.add`, `Draft.commit` — from factor to section to tree
- `Draft.beginProduction`, `Draft.endProduction` — a production and its number
-/

namespace GrammarNotation

/-- What has been built so far. -/
structure Draft where
  children : List Tree
  /-- The nodes of the section that is being read. -/
  pending : List Tree
  /-- The nodes of the production, or of the expression, that is being read. -/
  body : List Tree
  /-- The number of the last production. -/
  counter : Nat
  notices : List Notice

namespace Draft

/-- A draft that goes on from the given tree, body and counter. -/
def resume (children body : List Tree) (counter : Nat) : Draft :=
  ⟨children, [], body, counter, []⟩

/-- Puts a node at the end of the body. -/
def attach (d : Draft) (r : Role) : Draft :=
  { d with body := d.body ++ [.leaf r] }

/-- Puts a node at the end of the section. -/
def add (d : Draft) (t : Tree) : Draft :=
  { d with pending := d.pending ++ [t] }

/-- Notes something. -/
def note (d : Draft) (n : Notice) : Draft :=
  { d with notices := d.notices ++ [n] }

/-- Draws a number for the production that defines `name`, and starts its body. -/
def beginProduction (d : Draft) (name : String) : Draft :=
  { d with counter := d.counter + 1, body := [.leaf (.head name)] }

/-- Makes the body a production of the section. -/
def endProduction (d : Draft) (number : Nat) (name : String) : Draft :=
  { d.add (.node (.production number) d.body) with body := [] }.note (.productionRead number name)

/-- Puts the nodes of the section into the tree. -/
def commit (d : Draft) : Draft :=
  { d with children := d.children ++ d.pending, pending := [] }

end Draft

end GrammarNotation
