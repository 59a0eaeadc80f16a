import GrammarNotation.Text.Lines
import GrammarNotation.Tree.Traversal

/-!
# Writing a tree

A tree is written with one line for each node, either indented by level or with drawn connectors.

## Main definitions

- `Tree.outline` — the lines with drawn connectors
- `Tree.drawing` — the same as one text
- `Tree.trace` — the indented lines as one text
-/

namespace GrammarNotation

namespace Tree

/-- The connector in front of a node that is, or is not, the last among its siblings. -/
def connector (isLast : Bool) : String :=
  if isLast then "┗╸" else "┣╸"

/-- What stands below the connector of such a node, in front of its descendants. -/
def continuation (isLast : Bool) : String :=
  if isLast then "  " else "┃ "

mutual

/-- The lines of a tree: `own` stands in front of the topmost node, `below` in front of all lines
under it. -/
def outline (own below : String) : Tree → List String
  | .node r cs => (own ++ r.description) :: (outlineAll cs).map (below ++ ·)

/-- The lines of sibling trees. -/
def outlineAll : List Tree → List String
  | [] => []
  | t :: ts => t.outline (connector ts.isEmpty) (continuation ts.isEmpty) ++ outlineAll ts

end

/-- The tree drawn with connectors, as one text. -/
def drawing (t : Tree) : String :=
  Text.unlines (t.outline "" "")

/-- The line of a node in a trace. -/
def traceLine (placed : String × Tree) : String :=
  placed.1 ++ "(ASTNode " ++ placed.2.role.description ++ ")\n"

/-- The tree as indented lines, each ended by a newline. -/
def trace (t : Tree) : String :=
  String.ofList ((t.indented "").flatMap fun placed => (traceLine placed).toList)

end Tree

end GrammarNotation
