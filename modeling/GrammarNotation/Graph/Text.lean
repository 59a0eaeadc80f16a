import GrammarNotation.Graph.Basic

/-!
# Graphs as text

A graph is handed to a writer of the DOT language as a row of statements, one for each node and
each edge. Labels come to the writer in quotes, with their quotes and backslashes protected; the
other attributes come as they are. The writer itself is not fixed: what is expected of it is that
it puts each statement on a line, and leaves names and quoted labels as they are.

## Main definitions

- `labelText` — a label in quotes, so that it may hold anything
- `GraphStatement` — what the writer is given for a node or an edge
- `GraphWriter` — a way to write statements
- `Graph.text` — the text of a graph, in some way of writing
- `GraphWriter.WritesLines` — what is expected of a way of writing
-/

namespace GrammarNotation

/-! ### Labels -/

/-- The text with a backslash in front of each occurrence of a character. -/
def protect (mark : Char) (cs : List Char) : List Char :=
  cs.flatMap fun c => if c = mark then ['\\', c] else [c]

/-- A label in double quotes, its backslashes protected first and its double quotes after them. -/
def labelText (s : String) : String :=
  String.ofList ('"' :: (protect '"' (protect '\\' s.toList) ++ ['"']))

/-! ### Statements -/

/-- What a writer is given for a node or an edge. -/
inductive GraphStatement where
  /-- A node with the text of its label, and with its other attributes in the order in which they
  are set. -/
  | node (name label : String) (attributes : List (String × String))
  | edge (source target : String)

/-- The name of the node with a given number. -/
def nodeName (id : Nat) : String := "n" ++ Text.decimal id

/-- The attributes of a node besides its label: its shape, where it has one, and the fonts. -/
def nodeAttributes (fontname fontsize : String) (shape : Option Shape) : List (String × String) :=
  (shape.map fun s => ("shape", s.name)).toList ++ [("fontsize", fontsize), ("fontname", fontname)]

/-- What a writer is given for an item of a graph. -/
def GraphItem.statement (fontname fontsize : String) : GraphItem → GraphStatement
  | .node id label shape =>
    .node (nodeName id) (labelText label) (nodeAttributes fontname fontsize shape)
  | .edge source target => .edge (nodeName source) (nodeName target)

/-- What a writer is given for a graph. -/
def Graph.statements (g : Graph) : List GraphStatement :=
  g.items.map (·.statement g.fontname g.fontsize)

/-! ### Writers -/

/-- A way to write statements. -/
abbrev GraphWriter := List GraphStatement → String

/-- The text of a graph, in some way of writing. -/
def Graph.text (write : GraphWriter) (g : Graph) : String := write g.statements

/-- The line of a statement, for some way to write the attributes behind the label. -/
def GraphStatement.line (others : List (String × String) → String) : GraphStatement → String
  | .node name label attributes => name ++ " [label=" ++ label ++ others attributes ++ "];\n"
  | .edge source target => source ++ " -- " ++ target ++ ";\n"

/-- A statement with nothing that a writer would have to quote, the attributes behind the label
left aside: nodes are named by number, and a label stands in quotes already. No attribute is set
twice. -/
inductive GraphStatement.IsPlain : GraphStatement → Prop
  | node {id : Nat} {label : String} {body : List Char} {attributes : List (String × String)}
      (quoted : label.toList = '"' :: (body ++ ['"']))
      (once : ("label" :: attributes.map Prod.fst).Nodup) :
      IsPlain (.node (nodeName id) label attributes)
  | edge {source target : Nat} : IsPlain (.edge (nodeName source) (nodeName target))

/-- **What is expected of a writer**: it writes plain statements in order, each on its line, between
a line that opens the graph and one that closes it. How it writes the attributes behind the label
is left open. -/
def GraphWriter.WritesLines (write : GraphWriter) : Prop :=
  ∃ others : List (String × String) → String,
    ∀ statements : List GraphStatement, (∀ s ∈ statements, s.IsPlain) →
      write statements =
        "graph G \x7b\n" ++ String.join (statements.map (·.line others)) ++ "\x7d\n"

/-! ### Laws -/

theorem toList_labelText (s : String) :
    (labelText s).toList = '"' :: (protect '"' (protect '\\' s.toList) ++ ['"']) := by
  rw [labelText, String.toList_ofList]

/-- What a graph hands to a writer is plain, whatever the labels hold. -/
theorem GraphItem.isPlain_statement (fontname fontsize : String) (item : GraphItem) :
    (item.statement fontname fontsize).IsPlain := by
  cases item with
  | node id label shape =>
    refine .node (toList_labelText label) ?_
    cases shape <;> simp [nodeAttributes]
  | edge source target => exact .edge

end GrammarNotation
