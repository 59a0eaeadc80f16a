import GrammarNotation.Tree.Basic

/-!
# Traversing a tree

Every traversal visits a node before its subtrees and the subtrees in order.

## Main definitions

- `Tree.preorder` — the nodes in the order of a recursive descent
- `Tree.indented` — the same, with an indentation of four blanks for each level
- `Tree.walk` — the nodes in the order in which a stack of pending subtrees yields them
- `Tree.isDescribed` — every node of the tree has a description
-/

namespace GrammarNotation

namespace Tree

mutual

/-- The subtrees of a tree, itself first, each before its own children. -/
def preorder : Tree → List Tree
  | .node r cs => .node r cs :: preorderAll cs

/-- The subtrees of the trees of a list, one tree after the other. -/
def preorderAll : List Tree → List Tree
  | [] => []
  | t :: ts => t.preorder ++ preorderAll ts

end

/-- What each level adds to the indentation. -/
def tab : String := "    "

mutual

/-- The subtrees of a tree in order of descent, each with the indentation of its level. -/
def indented (indentation : String) : Tree → List (String × Tree)
  | .node r cs => (indentation, .node r cs) :: indentedAll (indentation ++ tab) cs

/-- The subtrees of the trees of a list, each with the indentation of its level. -/
def indentedAll (indentation : String) : List Tree → List (String × Tree)
  | [] => []
  | t :: ts => t.indented indentation ++ indentedAll indentation ts

end

/-- The nodes that a stack of pending subtrees yields: the topmost subtree is taken off, and its
children are put on, the first one on top. -/
def walkStack : (stack : List Tree) → List Tree
  | [] => []
  | .node r cs :: stack => .node r cs :: walkStack (cs ++ stack)
termination_by stack => sizeAll stack
decreasing_by
  simp only [sizeAll, sizeAll_append, size]
  omega

/-- The subtrees of a tree in the order in which a stack yields them. -/
def walk (t : Tree) : List Tree := walkStack [t]

/-- Tells whether every node of the tree has a description. -/
def isDescribed (t : Tree) : Bool :=
  t.preorder.all (·.role.isDescribed)

theorem preorderAll_append (ss ts : List Tree) :
    preorderAll (ss ++ ts) = preorderAll ss ++ preorderAll ts := by
  induction ss with
  | nil => rfl
  | cons s ss ih => rw [List.cons_append, preorderAll, preorderAll, ih, List.append_assoc]

/-- A stack yields the nodes of its trees, one tree after the other. -/
theorem walkStack_eq_preorderAll (stack : List Tree) : walkStack stack = preorderAll stack := by
  fun_induction walkStack stack with
  | case1 => rfl
  | case2 r cs stack ih =>
    rw [ih, preorderAll_append, preorderAll, preorder]
    rfl

/-- A stack yields the nodes of a tree in order of descent. -/
theorem walk_eq_preorder (t : Tree) : t.walk = t.preorder := by
  rw [walk, walkStack_eq_preorderAll, preorderAll, preorderAll, List.append_nil]

theorem length_preorder (t : Tree) : t.preorder.length = t.size := by
  induction t using Tree.preorder.induct
    (motive_2 := fun ts => (preorderAll ts).length = sizeAll ts) with
  | case1 r cs ih => simp [preorder, size, ih]
  | case2 => rfl
  | case3 t ts iht ihts => simp [preorderAll, sizeAll, iht, ihts]

end Tree

end GrammarNotation
