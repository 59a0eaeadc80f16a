import GrammarNotation.Tree.Role

/-!
# Trees of grammar descriptions

A tree is a node with a role and an ordered list of subtrees.

## Main definitions

- `Tree` — a tree, with decidable equality
- `Tree.leaf` — a node without children
- `Tree.size` — how many nodes a tree has
- `Tree.shown` — the form in which messages show a tree
-/

namespace GrammarNotation

/-- A node with a role and an ordered list of subtrees. -/
inductive Tree where
  | node (role : Role) (children : List Tree)

namespace Tree

/-- A node without children. -/
def leaf (r : Role) : Tree := .node r []

/-- What the topmost node stands for. -/
def role : Tree → Role
  | .node r _ => r

/-- The subtrees below the topmost node. -/
def children : Tree → List Tree
  | .node _ cs => cs

@[simp]
theorem role_node (r : Role) (cs : List Tree) : (node r cs).role = r := rfl

@[simp]
theorem children_node (r : Role) (cs : List Tree) : (node r cs).children = cs := rfl

mutual

/-- Decides whether two trees are the same. -/
def decEq : (s t : Tree) → Decidable (s = t)
  | .node r cs, .node q ds =>
    match instDecidableEqRole r q, decEqAll cs ds with
    | isTrue hr, isTrue hc => isTrue (by rw [hr, hc])
    | isFalse hr, _ => isFalse fun h => hr (node.inj h).1
    | _, isFalse hc => isFalse fun h => hc (node.inj h).2

/-- Decides whether two lists of trees are the same. -/
def decEqAll : (ss ts : List Tree) → Decidable (ss = ts)
  | [], [] => isTrue rfl
  | [], _ :: _ => isFalse (List.cons_ne_nil _ _).symm
  | _ :: _, [] => isFalse (List.cons_ne_nil _ _)
  | s :: ss, t :: ts =>
    match decEq s t, decEqAll ss ts with
    | isTrue hs, isTrue hss => isTrue (by rw [hs, hss])
    | isFalse hs, _ => isFalse fun h => hs (List.cons.inj h).1
    | _, isFalse hss => isFalse fun h => hss (List.cons.inj h).2

end

instance : DecidableEq Tree := decEq

mutual

/-- How many nodes a tree has. -/
def size : Tree → Nat
  | .node _ cs => sizeAll cs + 1

/-- How many nodes the trees of a list have together. -/
def sizeAll : List Tree → Nat
  | [] => 0
  | t :: ts => t.size + sizeAll ts

end

theorem sizeAll_append (ss ts : List Tree) : sizeAll (ss ++ ts) = sizeAll ss + sizeAll ts := by
  induction ss with
  | nil => simp [sizeAll]
  | cons s ss ih => simp [sizeAll, ih, Nat.add_assoc]

/-- The form in which messages show a tree. -/
def shown (t : Tree) : String :=
  "ASTNode(" ++ t.role.shown ++ ", " ++ Text.decimal t.children.length ++ " children)"

end Tree

end GrammarNotation
