import GrammarNotation.Proofs.Tree.Traversals
import GrammarNotation.Tree.Outline
import Mathlib.Data.List.Infix

/-!
# Connectors of an outline

An outline is put together from below: each level adds something in front of all lines of a subtree.
Yet the line of a node is determined by the path to it from the top, namely by which of the nodes on
this path have a later sibling.

## Main definitions

- `Tree.hasLater` — whether a node has a later sibling
- `Tree.lineFront` — what stands in front of a description, from the path to the node

## Main statements

- `Tree.lineFront_cons` — a path begins with a step to a child
- `Tree.outline_eq` — the lines of an outline, node by node
- `Tree.outline_shows_paths` — an outline has one line for each node, determined by the path to it
-/

namespace GrammarNotation

namespace Tree

variable {t c : Tree} {i : Nat} {a b : List Nat}

/-- Tells whether the node at an address has a later sibling. -/
def hasLater (t : Tree) (a : List Nat) : Bool :=
  match t.get? a.dropLast, a.getLast? with
  | some above, some i => i + 1 < above.children.length
  | _, _ => false

/-- The addresses of the nodes above the one at an address, from the top down and without the
topmost node of the tree. -/
def ancestors (a : List Nat) : List (List Nat) := a.dropLast.inits.tail

/-- **What stands in front of the description of a node**: `own` for the topmost one, and for any
other one `below`, then a bar for each ancestor with a later sibling and blanks for each other one,
and then a connector for the node itself. -/
def lineFront (own below : String) (t : Tree) : List Nat → String
  | [] => own
  | i :: a =>
    below ++ String.join ((ancestors (i :: a)).map fun b => if t.hasLater b then "┃ " else "  ") ++
      if t.hasLater (i :: a) then "┣╸" else "┗╸"

/-! ### Paths from the top -/

theorem hasLater_singleton (t : Tree) (i : Nat) :
    t.hasLater [i] = decide (i + 1 < t.children.length) := rfl

theorem hasLater_cons (child : t.children[i]? = some c) (ne : a ≠ []) :
    t.hasLater (i :: a) = c.hasLater a := by
  obtain ⟨j, b, rfl⟩ := List.exists_cons_of_ne_nil ne
  rw [hasLater, hasLater, List.dropLast_cons_of_ne_nil ne, get?_cons child, List.getLast?_cons_cons]

theorem ancestors_cons (ne : a ≠ []) :
    ancestors (i :: a) = [i] :: (ancestors a).map (i :: ·) := by
  obtain ⟨j, b, rfl⟩ := List.exists_cons_of_ne_nil ne
  rw [ancestors, ancestors, List.dropLast_cons_of_ne_nil ne]
  cases (j :: b).dropLast <;> simp

theorem ne_nil_of_mem_ancestors (mem : b ∈ ancestors a) : b ≠ [] := by
  rw [ancestors] at mem
  cases above : a.dropLast with
  | nil => simp [above] at mem
  | cons i a =>
    rw [above, List.inits_cons, List.tail_cons] at mem
    obtain ⟨b, -, rfl⟩ := List.mem_map.1 mem
    exact List.cons_ne_nil i b

/-- **A path begins with a step to a child.** What the rest of the path adds stands behind what the
lines of this child begin with. -/
theorem lineFront_cons (child : t.children[i]? = some c) (own below : String) (a : List Nat) :
    t.lineFront own below (i :: a) = below ++
      c.lineFront (connector !t.hasLater [i]) (continuation !t.hasLater [i]) a := by
  cases a with
  | nil => cases later : t.hasLater [i] <;> simp [lineFront, ancestors, connector, later]
  | cons j a =>
    have ne : j :: a ≠ [] := List.cons_ne_nil j a
    have above : ((ancestors (j :: a)).map (i :: ·)).map
        (fun b => if t.hasLater b then "┃ " else "  ") =
          (ancestors (j :: a)).map fun b => if c.hasLater b then "┃ " else "  " := by
      rw [List.map_map]
      refine List.map_congr_left fun b mem => ?_
      rw [Function.comp_apply, hasLater_cons child (ne_nil_of_mem_ancestors mem)]
    rw [lineFront, lineFront, ancestors_cons ne, List.map_cons, String.join_cons, above,
      hasLater_cons child ne]
    cases t.hasLater [i] <;> simp [continuation, String.append_assoc]

/-! ### Lines -/

/-- **The lines of an outline, node by node.** -/
theorem outline_eq (t : Tree) (own below : String) :
    t.outline own below = t.located.map fun n =>
      t.lineFront own below n.address ++ n.subtree.role.description := by
  -- For lists it is about the children of a node behind those in `before`.
  induction t using Tree.preorder.induct
    (motive_2 := fun ts => ∀ r before (own below : String),
      (outlineAll ts).map (below ++ ·) = (locatedAll before.length ts).map fun n =>
        (node r (before ++ ts)).lineFront own below n.address ++ n.subtree.role.description)
    generalizing own below with
  | case1 r cs ih =>
    have children := ih r [] own below
    rw [outline, located, List.map_cons]
    exact congrArg (_ :: ·) children
  | case2 => rfl
  | case3 t ts iht ihts =>
    rename_i r before own below
    have child : (node r (before ++ t :: ts)).children[before.length]? = some t := by simp
    have last : (!(node r (before ++ t :: ts)).hasLater [before.length]) = ts.isEmpty := by
      rw [hasLater_singleton]
      cases ts <;> simp
    have others := ihts r (before ++ [t]) own below
    rw [List.append_assoc, List.singleton_append, List.length_append, List.length_singleton]
      at others
    rw [outlineAll, locatedAll, List.map_append, List.map_append, others, iht, List.map_map,
      List.map_map]
    congr 1
    refine List.map_congr_left fun n _ => ?_
    have front := lineFront_cons child own below n.address
    rw [last] at front
    simp only [Function.comp_apply, Located.under, List.singleton_append, front,
      String.append_assoc]

/-- **Every line of an outline is determined by the path to its node.** There is one line for each
node, in the order in which a stack yields them, and in front of the description it shows which
nodes on the path from the top have a later sibling. -/
theorem outline_shows_paths (ht : t.isDescribed) (own below : String) :
    t.IsDescent t.located ∧ t.walk = t.located.map (·.subtree) ∧
      (t.outline own below).map some = t.located.map fun n =>
        n.subtree.role.description?.map (t.lineFront own below n.address ++ ·) := by
  refine ⟨t.isDescent_located, t.walk_eq_map_located, ?_⟩
  rw [outline_eq, List.map_map]
  refine List.map_congr_left fun n mem => ?_
  have within : n.subtree ∈ t.preorder := by
    rw [← map_subtree_located]
    exact List.mem_map_of_mem mem
  obtain ⟨description, shown⟩ := Option.isSome_iff_exists.1 (List.all_eq_true.1 ht _ within)
  simp [Role.description, shown]

/-- The lines below a production begin with a bar if another production follows. -/
theorem outline_shows_paths_nested :
    let t : Tree := .node .root
      [.node (.production 1) [.leaf (.head "A"), .node (.mark .bar) [.leaf (.terminal "a")]],
        .node (.production 2) [.leaf (.head "B")]]
    t.isDescribed ∧ t.IsDescent t.located ∧ (t.outline "> " "| ").map some =
      [some "> Root Node", some "| ┣╸Production[1]", some "| ┃ ┣╸lhs: A",
        some "| ┃ ┗╸Punctuation: |", some "| ┃   ┗╸Terminal: a", some "| ┗╸Production[2]",
        some "|   ┗╸lhs: B"] := by
  intro t
  have described : t.isDescribed := by decide
  obtain ⟨descent, -, lines⟩ := outline_shows_paths described "> " "| "
  exact ⟨described, descent, lines.trans (by decide +kernel)⟩

end Tree

end GrammarNotation
