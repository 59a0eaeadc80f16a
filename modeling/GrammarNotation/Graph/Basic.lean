import GrammarNotation.Tree.Traversal

/-!
# Graphs of trees

A tree is drawn as a graph: a node for each node of the tree, numbered in the order of descent,
and an edge from each node to each of its children. An edge is drawn after the whole subtree that
it leads to.

## Main definitions

- `GraphItem` — a node or an edge
- `Tree.sketch` — the items of a tree
- `Viewer` — fonts, and the number of nodes in the last graph
- `Viewer.draw` — the graph of a tree, if all its nodes have descriptions
-/

namespace GrammarNotation

/-- How a node is framed. -/
inductive Shape where
  | plaintext
  | box
  | ellipse
  deriving DecidableEq

/-- The name of a shape. -/
def Shape.name : Shape → String
  | .plaintext => "plaintext"
  | .box => "box"
  | .ellipse => "ellipse"

/-- The shape of nodes with a role, where it is not the usual one. -/
def Role.shape? : Role → Option Shape
  | .mark _ => some .plaintext
  | .terminal _ => some .box
  | .nonterminal _ => some .ellipse
  | _ => none

/-- A node or an edge of a graph. -/
inductive GraphItem where
  | node (id : Nat) (label : String) (shape : Option Shape)
  | edge (source target : Nat)
  deriving DecidableEq

namespace Tree

mutual

/-- The items of a tree whose nodes are numbered from `next`, and the number after the last. -/
def sketch (next : Nat) : Tree → List GraphItem × Nat
  | .node r cs =>
    let below := sketchAll next (next + 1) cs
    (.node next r.description r.shape? :: below.1, below.2)

/-- The items of the subtrees of the node numbered `parent`, with the edges that lead to them. -/
def sketchAll (parent next : Nat) : List Tree → List GraphItem × Nat
  | [] => ([], next)
  | t :: ts =>
    let first := t.sketch next
    let others := sketchAll parent first.2 ts
    (first.1 ++ .edge parent next :: others.1, others.2)

end

/-- A tree takes up as many numbers as it has nodes. -/
theorem sketch_snd (next : Nat) (t : Tree) : (t.sketch next).2 = next + t.size := by
  induction t using Tree.preorder.induct
    (motive_2 := fun ts => ∀ parent next, (sketchAll parent next ts).2 = next + sizeAll ts)
    generalizing next with
  | case1 r cs ih =>
    simp only [sketch, size, ih]
    omega
  | case2 => rfl
  | case3 t ts iht ihts =>
    simp only [sketchAll, sizeAll, iht, ihts]
    omega

end Tree

/-- A graph with the fonts of its labels. -/
structure Graph where
  /-- The nodes and edges in the order in which they are drawn. -/
  items : List GraphItem
  fontname : String
  fontsize : String

namespace Graph

/-- How many nodes a graph has. -/
def nodeCount (g : Graph) : Nat :=
  g.items.countP fun
    | .node _ _ _ => true
    | .edge _ _ => false

/-- The edges of a graph in order. -/
def edges (g : Graph) : List (Nat × Nat) :=
  g.items.filterMap fun
    | .node _ _ _ => none
    | .edge source target => some (source, target)

end Graph

/-- Draws graphs with the same fonts, and keeps the number of nodes drawn last. -/
structure Viewer where
  fontname : String := "Arial"
  fontsize : String := "8"
  /-- How many nodes were drawn last. -/
  count : Nat := 0

/-- The graph of a tree, and the viewer after drawing it. A node without a description stops the
drawing, and then only the nodes in front of it are counted. -/
def Viewer.draw (v : Viewer) (t : Tree) : Option Graph × Viewer :=
  if t.isDescribed then
    let drawn := t.sketch 0
    (some ⟨drawn.1, v.fontname, v.fontsize⟩, { v with count := drawn.2 })
  else
    (none, { v with count := (t.preorder.takeWhile (·.role.isDescribed)).length })

end GrammarNotation
