import GrammarNotation.Graph.Text
import GrammarNotation.Proofs.Text.Codes
import GrammarNotation.Proofs.Tree.Levels
import Mathlib.Data.List.Basic
import Mathlib.Data.List.Forall2

/-!
# Reading a graph text back

The text of a graph shows its nodes and edges one by one, since the line of each shows where it
ends: a label ends at the first quote that no backslash protects, whatever it holds. What stands
behind a label need not be understood. The label is a description, the description shows the
shape of the node, and the fonts are the same all over. In the order in which they are drawn, nodes
and edges show the tree: an edge stands behind each subtree.

## Main definitions

- `readQuoted` — the quoted string at the front of a text, up to its closing quote
- `unescaped` — a label without the backslashes that protect its quotes and backslashes
- `shapeFor` — the shape that goes with the beginning of a description
- `GraphItem.IsDrawn` — the shape of a node goes with its label
- `GraphItem.IsShownBy` — a line shows a node with its label, or an edge
- `Graph.labels` — the labels of the nodes in order

## Main statements

- `protect_protect` — protecting backslashes first and quotes after them is one pass over the text
- `readQuoted_protect`, `unescaped_protect` — a label is read back in front of any text
- `GraphItem.line_append_inj` — the line of an item shows where it ends
- `Graph.items_eq_of_text_eq` — nodes and edges are read back from the text
- `Tree.sketch_append_inj` — nodes and edges show the tree
- `Viewer.draw_text_inj` — trees with the same graph text have the same shape and descriptions
-/

namespace GrammarNotation

/-! ### Labels -/

/-- A character of a label as it stands between the quotes. -/
def escapedLabelChar (c : Char) : List Char :=
  if c = '\\' ∨ c = '"' then ['\\', c] else [c]

/-- **What stands in front of the closing quote, and what stands behind it**: the first quote that
no backslash protects closes the string. -/
def readQuoted : List Char → Option (List Char × List Char)
  | [] => none
  | '"' :: cs => some ([], cs)
  | '\\' :: c :: cs => (readQuoted cs).map fun r => ('\\' :: c :: r.1, r.2)
  | c :: cs => (readQuoted cs).map fun r => (c :: r.1, r.2)

/-- A text without the backslashes that stand in front of quotes and backslashes. -/
def unescaped : List Char → List Char
  | '\\' :: '\\' :: cs => '\\' :: unescaped cs
  | '\\' :: '"' :: cs => '"' :: unescaped cs
  | c :: cs => c :: unescaped cs
  | [] => []

section Labels

variable {c : Char} (cs rest : List Char)

/-- **Two passes are one**: the backslashes that the second pass puts in are not protected, since
the first pass is over by then. -/
theorem protect_protect : protect '"' (protect '\\' cs) = cs.flatMap escapedLabelChar := by
  rw [protect, protect, List.flatMap_assoc]
  refine List.flatMap_congr fun c _ => ?_
  by_cases backslash : c = '\\'
  · subst backslash
    rfl
  · simp [escapedLabelChar, backslash]

theorem readQuoted_cons (noQuote : c ≠ '"') (noBackslash : c ≠ '\\') :
    readQuoted (c :: cs) = (readQuoted cs).map fun r => (c :: r.1, r.2) := by
  rw [readQuoted]
  · exact noQuote
  · intro d ds backslash
    exact absurd backslash noBackslash

theorem unescaped_cons (noBackslash : c ≠ '\\') : unescaped (c :: cs) = c :: unescaped cs := by
  rw [unescaped.eq_def]
  simp [noBackslash]

/-- **A label ends at its closing quote**, whatever it holds and whatever stands behind it. -/
theorem readQuoted_protect :
    readQuoted (protect '"' (protect '\\' cs) ++ '"' :: rest) =
      some (protect '"' (protect '\\' cs), rest) := by
  rw [protect_protect]
  induction cs with
  | nil => rfl
  | cons c cs ih =>
    rw [List.flatMap_cons, List.append_assoc]
    by_cases special : c = '\\' ∨ c = '"'
    · have eq : escapedLabelChar c = ['\\', c] := if_pos special
      rw [eq]
      exact congrArg (Option.map _) ih
    · have eq : escapedLabelChar c = [c] := if_neg special
      rw [not_or] at special
      rw [eq, List.singleton_append, List.singleton_append, readQuoted_cons _ special.2 special.1,
        ih]
      rfl

/-- **A label is what it was made from**, once the backslashes are gone. -/
theorem unescaped_protect : unescaped (protect '"' (protect '\\' cs)) = cs := by
  rw [protect_protect]
  induction cs with
  | nil => rfl
  | cons c cs ih =>
    rw [List.flatMap_cons]
    by_cases special : c = '\\' ∨ c = '"'
    · have eq : escapedLabelChar c = ['\\', c] := if_pos special
      rw [eq]
      rcases special with rfl | rfl
      · exact congrArg _ ih
      · exact congrArg _ ih
    · have eq : escapedLabelChar c = [c] := if_neg special
      rw [not_or] at special
      rw [eq, List.singleton_append, unescaped_cons _ special.1, ih]

theorem labelText_append_inj {r s : String} {v w : List Char}
    (h : (labelText r).toList ++ v = (labelText s).toList ++ w) : r = s ∧ v = w := by
  have chars : protect '"' (protect '\\' r.toList) ++ '"' :: v =
      protect '"' (protect '\\' s.toList) ++ '"' :: w := by
    simpa [toList_labelText] using h
  have both := congrArg readQuoted chars
  rw [readQuoted_protect, readQuoted_protect] at both
  obtain ⟨label, rest⟩ := Prod.mk.inj (Option.some.inj both)
  have text := congrArg unescaped label
  rw [unescaped_protect, unescaped_protect] at text
  exact ⟨String.toList_inj.1 text, rest⟩

end Labels

/-! ### Shapes -/

/-- The shape of the nodes whose description begins with the given two characters. -/
def shapeFor : List Char → Option Shape
  | ['P', 'u'] => some .plaintext
  | ['T', 'e'] => some .box
  | ['N', 'o'] => some .ellipse
  | _ => none

theorem Role.shape?_eq_shapeFor (r : Role) : r.shape? = shapeFor (r.description.toList.take 2) := by
  cases r <;> simp [shape?, description, description?, shapeFor]

/-- **A description shows the shape of its node.** -/
theorem Role.shape?_eq_of_description_eq {q r : Role} (h : q.description = r.description) :
    q.shape? = r.shape? := by
  rw [shape?_eq_shapeFor, shape?_eq_shapeFor, h]

/-- **The shape of a node goes with its label**: both come of one role. -/
inductive GraphItem.IsDrawn : GraphItem → Prop
  | node {id : Nat} (r : Role) : IsDrawn (.node id r.description r.shape?)
  | edge {source target : Nat} : IsDrawn (.edge source target)

/-! ### Lines -/

section Lines

variable {others : List (String × String) → String} {fontname fontsize : String} {v w : List Char}

theorem toList_nodeName (id : Nat) : (nodeName id).toList = 'n' :: Text.digits id := by
  have eq : Text.decimal id = String.ofList (Text.digits id) := rfl
  simp [nodeName, eq]

theorem toList_line_node (id : Nat) (label : String) (shape : Option Shape) :
    (((GraphItem.node id label shape).statement fontname fontsize).line others).toList =
      'n' :: (Text.digits id ++ (" [label=".toList ++ ((labelText label).toList ++
        ((others (nodeAttributes fontname fontsize shape)).toList ++ "];\n".toList)))) := by
  simp [GraphItem.statement, GraphStatement.line, toList_nodeName]

theorem toList_line_edge (source target : Nat) :
    (((GraphItem.edge source target).statement fontname fontsize).line others).toList =
      'n' :: (Text.digits source ++ (" -- n".toList ++ (Text.digits target ++ ";\n".toList))) := by
  simp [GraphItem.statement, GraphStatement.line, toList_nodeName]

/-- Behind the number of its first node a line shows whether it is the line of a node. -/
theorem line_node_append_ne {id source target : Nat} {label : String} {shape : Option Shape} :
    (((GraphItem.node id label shape).statement fontname fontsize).line others).toList ++ v ≠
      (((GraphItem.edge source target).statement fontname fontsize).line others).toList ++ w := by
  intro h
  simp only [toList_line_node, toList_line_edge, List.cons_append, List.append_assoc] at h
  obtain ⟨-, behind⟩ := Text.digits_append_inj (by simp) (by simp) (List.cons.inj h).2
  simp at behind

/-- **The line of an item shows where it ends**, whatever the labels hold. -/
theorem GraphItem.line_append_inj {a b : GraphItem} (ha : a.IsDrawn) (hb : b.IsDrawn)
    (h : ((a.statement fontname fontsize).line others).toList ++ v =
      ((b.statement fontname fontsize).line others).toList ++ w) : a = b ∧ v = w := by
  cases ha with
  | @node id r =>
    cases hb with
    | @node id' q =>
      simp only [toList_line_node, List.cons_append, List.append_assoc] at h
      obtain ⟨rfl, labels⟩ := Text.digits_append_inj (by simp) (by simp) (List.cons.inj h).2
      obtain ⟨description, tail⟩ := labelText_append_inj (List.append_cancel_left labels)
      -- The label shows the shape, so the same attributes stand behind both labels.
      have shape := Role.shape?_eq_of_description_eq description
      rw [shape] at tail
      exact ⟨by rw [description, shape],
        List.append_cancel_left (List.append_cancel_left tail)⟩
    | edge => exact absurd h line_node_append_ne
  | @edge source target =>
    cases hb with
    | node r => exact absurd h.symm line_node_append_ne
    | @edge source' target' =>
      simp only [toList_line_edge, List.cons_append, List.append_assoc] at h
      obtain ⟨rfl, targets⟩ := Text.digits_append_inj (by simp) (by simp) (List.cons.inj h).2
      obtain ⟨rfl, rest⟩ :=
        Text.digits_append_inj (by simp) (by simp) (List.append_cancel_left targets)
      exact ⟨rfl, List.append_cancel_left rest⟩

/-- **What the line of an item shows.** The line of a node holds its label in quotes: a string that
ends at its closing quote in front of any text, and without its backslashes is the label. -/
inductive GraphItem.IsShownBy : GraphItem → List Char → Prop
  | node {id : Nat} {label : String} {shape : Option Shape} {body rest : List Char}
      (quoted : (labelText label).toList = '"' :: (body ++ ['"']))
      (ends : ∀ more, readQuoted (body ++ '"' :: more) = some (body, more))
      (means : unescaped body = label.toList) :
      IsShownBy (.node id label shape)
        ((nodeName id).toList ++ " [label=\"".toList ++ body ++ '"' :: rest ++ "];\n".toList)
  | edge {source target : Nat} :
      IsShownBy (.edge source target)
        ((nodeName source).toList ++ " -- ".toList ++ (nodeName target).toList ++ ";\n".toList)

theorem GraphItem.isShownBy_line (item : GraphItem) :
    item.IsShownBy ((item.statement fontname fontsize).line others).toList := by
  cases item with
  | node id label shape =>
    have eq : (((GraphItem.node id label shape).statement fontname fontsize).line others).toList =
        (nodeName id).toList ++ " [label=\"".toList ++ protect '"' (protect '\\' label.toList) ++
          '"' :: (others (nodeAttributes fontname fontsize shape)).toList ++ "];\n".toList := by
      simp [GraphItem.statement, GraphStatement.line, toList_labelText]
    rw [eq]
    exact .node (toList_labelText label) (fun more => readQuoted_protect label.toList more)
      (unescaped_protect label.toList)
  | edge source target =>
    have eq : (((GraphItem.edge source target).statement fontname fontsize).line others).toList =
        (nodeName source).toList ++ " -- ".toList ++ (nodeName target).toList ++ ";\n".toList := by
      simp [GraphItem.statement, GraphStatement.line]
    rw [eq]
    exact .edge

end Lines

/-! ### Graphs -/

/-- The label of a node. -/
def GraphItem.label? : GraphItem → Option String
  | .node _ label _ => some label
  | .edge _ _ => none

namespace Graph

variable {write : GraphWriter} {g g' : Graph}

/-- The labels of the nodes in order. -/
def labels (g : Graph) : List String := g.items.filterMap GraphItem.label?

/-- A writer that writes lines puts those of the items between the same two. -/
theorem exists_toList_text (hw : write.WritesLines) :
    ∃ others : List (String × String) → String, ∀ g : Graph, (g.text write).toList =
      "graph G \x7b\n".toList
        ++ g.items.flatMap (fun item =>
          ((item.statement g.fontname g.fontsize).line others).toList)
        ++ "\x7d\n".toList := by
  obtain ⟨others, writes⟩ := hw
  refine ⟨others, fun g => ?_⟩
  have plain : ∀ s ∈ g.statements, s.IsPlain :=
    List.forall_mem_map.2 fun item _ => item.isPlain_statement g.fontname g.fontsize
  rw [text, writes g.statements plain]
  simp [statements, List.flatMap_map]

/-- Two graphs with the same fonts and the same text have the same items. -/
theorem items_eq_of_text_eq (hw : write.WritesLines) (fontname : g.fontname = g'.fontname)
    (fontsize : g.fontsize = g'.fontsize) (hg : ∀ item ∈ g.items, item.IsDrawn)
    (hg' : ∀ item ∈ g'.items, item.IsDrawn) (h : g.text write = g'.text write) :
    g.items = g'.items := by
  obtain ⟨others, lines⟩ := exists_toList_text hw
  have chars := congrArg String.toList h
  rw [lines, lines, ← fontname, ← fontsize, List.append_assoc, List.append_assoc] at chars
  refine Text.flatMap_append_inj _ _ ?_ ?_ (List.append_cancel_left chars)
  · intro a ha b hb v w
    exact GraphItem.line_append_inj (hg a ha) (hg' b hb)
  · intro item v
    cases item with
    | node id label shape => simp [toList_line_node]
    | edge source target => simp [toList_line_edge]

/-- The text of a graph shows its items, each on its line. -/
theorem exists_lines_of_text (hw : write.WritesLines) :
    ∃ lines, (g.text write).toList = "graph G \x7b\n".toList ++ lines.flatten ++ "\x7d\n".toList ∧
      List.Forall₂ GraphItem.IsShownBy g.items lines := by
  obtain ⟨others, text⟩ := exists_toList_text hw
  refine ⟨_, text g, List.forall₂_map_right_iff.2 (List.forall₂_same.2 fun item _ => ?_)⟩
  exact item.isShownBy_line

end Graph

/-! ### Trees -/

namespace Tree

variable {t u : Tree} {xs ys : List GraphItem}

/-- **Nodes and edges show the tree**: behind the last child of a node comes no further node. -/
theorem sketch_append_inj {next next' : Nat} (hx : ∀ item ∈ xs.head?, item.label? = none)
    (hy : ∀ item ∈ ys.head?, item.label? = none)
    (h : (t.sketch next).1 ++ xs = (u.sketch next').1 ++ ys) : t.Resembles u ∧ xs = ys := by
  induction t using Tree.preorder.induct
    (motive_2 := fun ts => ∀ {us : List Tree} {parent parent' next next' : Nat}
      {xs ys : List GraphItem},
      (∀ item ∈ xs.head?, item.label? = none) → (∀ item ∈ ys.head?, item.label? = none) →
      (sketchAll parent next ts).1 ++ xs = (sketchAll parent' next' us).1 ++ ys →
      ResembleAll ts us ∧ xs = ys)
    generalizing u next next' xs ys with
  | case1 r cs ih =>
    obtain ⟨q, ds⟩ := u
    obtain ⟨node, below⟩ := List.cons.inj h
    obtain ⟨children, rest⟩ := ih hx hy below
    exact ⟨⟨(GraphItem.node.inj node).2.1, children⟩, rest⟩
  | case2 =>
    rename_i us parent parent' next next' xs ys hx hy h
    cases us with
    | nil => exact ⟨trivial, h⟩
    | cons u us =>
      obtain ⟨q, ds⟩ := u
      have first : GraphItem.node next' q.description q.shape? ∈ xs.head? := by
        rw [show xs = _ from h]
        rfl
      cases hx _ first
  | case3 t ts iht ihts =>
    rename_i us parent parent' next next' xs ys hx hy h
    cases us with
    | nil =>
      obtain ⟨r, cs⟩ := t
      have first : GraphItem.node next r.description r.shape? ∈ ys.head? := by
        rw [show ys = _ from h.symm]
        rfl
      cases hy _ first
    | cons u us =>
      -- Behind the first subtree comes the edge that leads to it.
      simp only [sketchAll, List.append_assoc, List.cons_append] at h
      have edge : ∀ {source target : Nat} {items : List GraphItem},
          ∀ item ∈ (GraphItem.edge source target :: items).head?, item.label? = none := by
        rintro source target items _ ⟨⟩
        rfl
      obtain ⟨first, behind⟩ := iht edge edge h
      obtain ⟨siblings, rest⟩ := ihts hx hy (List.cons.inj behind).2
      exact ⟨⟨first, siblings⟩, rest⟩

/-- The labels of the nodes are the descriptions in the tree. -/
theorem filterMap_label?_sketch (next : Nat) (t : Tree) :
    (t.sketch next).1.filterMap GraphItem.label? = t.preorder.map (·.role.description) := by
  induction t using Tree.preorder.induct
    (motive_2 := fun ts => ∀ parent next,
      (sketchAll parent next ts).1.filterMap GraphItem.label? =
        (preorderAll ts).map (·.role.description)) generalizing next with
  | case1 r cs ih => simp [sketch, preorder, GraphItem.label?, ih]
  | case2 => rfl
  | case3 t ts iht ihts =>
    simp [sketchAll, preorderAll, List.filterMap_cons, GraphItem.label?, iht, ihts]

/-- Every item of a drawing is drawn from a role. -/
theorem isDrawn_of_mem_sketch (next : Nat) (t : Tree) :
    ∀ item ∈ (t.sketch next).1, item.IsDrawn := by
  induction t using Tree.preorder.induct
    (motive_2 := fun ts => ∀ parent next, ∀ item ∈ (sketchAll parent next ts).1, item.IsDrawn)
    generalizing next with
  | case1 r cs ih =>
    rw [sketch, List.forall_mem_cons]
    exact ⟨.node r, ih next (next + 1)⟩
  | case2 =>
    rename_i mem
    cases mem
  | case3 t ts iht ihts =>
    rename_i parent next item mem
    rw [sketchAll, List.mem_append, List.mem_cons] at mem
    rcases mem with first | rfl | others
    · exact iht next item first
    · exact .edge
    · exact ihts parent _ item others

end Tree

/-- **A graph text shows the tree**, whatever its descriptions and the fonts are, and in whatever
way attributes are written: trees that have a description at every node are drawn, and if the same
text comes of two of them, they have the same shape and the same descriptions. The nodes are
labelled with the descriptions in order, and the text has a line for each item, which shows the
label as a string that ends at its closing quote, and without its backslashes is the description
again. -/
theorem Viewer.draw_text_inj {write : GraphWriter} (hw : write.WritesLines) {v w : Viewer}
    (fontname : v.fontname = w.fontname) (fontsize : v.fontsize = w.fontsize) {t u : Tree}
    (ht : t.isDescribed) (hu : u.isDescribed) :
    ∃ g g', (v.draw t).1 = some g ∧ (w.draw u).1 = some g' ∧
      (g.text write = g'.text write → t.Resembles u) ∧
      g.labels = t.walk.map (·.role.description) ∧
      ∃ lines, (g.text write).toList =
          "graph G \x7b\n".toList ++ lines.flatten ++ "\x7d\n".toList ∧
        List.Forall₂ GraphItem.IsShownBy g.items lines := by
  have drawn : ∀ {v : Viewer} {t : Tree}, t.isDescribed →
      (v.draw t).1 = some ⟨(t.sketch 0).1, v.fontname, v.fontsize⟩ := by
    intro v t ht
    rw [Viewer.draw, if_pos ht]
  refine ⟨_, _, drawn ht, drawn hu, ?_, ?_, Graph.exists_lines_of_text hw⟩
  · intro same
    have items : (t.sketch 0).1 ++ [] = (u.sketch 0).1 ++ [] :=
      congrArg (· ++ []) (Graph.items_eq_of_text_eq hw fontname fontsize
        (t.isDrawn_of_mem_sketch 0) (u.isDrawn_of_mem_sketch 0) same)
    exact (Tree.sketch_append_inj (by simp) (by simp) items).1
  · rw [Tree.walk_eq_preorder]
    exact t.filterMap_label?_sketch 0

/-- A writer that never quotes: right where fonts and shapes are words or numbers. -/
def GraphWriter.bare : GraphWriter := fun statements =>
  let others (attributes : List (String × String)) : String :=
    String.join (attributes.map fun a => ", " ++ a.1 ++ "=" ++ a.2)
  "graph G \x7b\n" ++ String.join (statements.map (·.line others)) ++ "\x7d\n"

/-- Different trees of the same shape and with the same descriptions, one of which looks like the
end of a line and the beginning of the next. -/
theorem Viewer.draw_text_inj_imitation :
    let below : Tree := .node (.production 0) [.leaf (.terminal "\"\\"), .leaf (.mark .bar)]
    let t : Tree := .node .root [.leaf (.token "a" "\\\"];\nn2 [label=\", c"), below]
    let u : Tree := .node .root [.leaf (.token "a, \\\"];\nn2 [label=\"" "c"), below]
    let text : String := String.join [
      "graph G \x7b\n",
      "n0 [label=\"Root Node\", fontsize=8, fontname=Arial];\n",
      "n1 [label=\"Token: (a, \\\\\\\"];\nn2 [label=\\\", c)\", fontsize=8, fontname=Arial];\n",
      "n0 -- n1;\n",
      "n2 [label=\"Production[0]\", fontsize=8, fontname=Arial];\n",
      "n3 [label=\"Terminal: \\\"\\\\\", shape=box, fontsize=8, fontname=Arial];\n",
      "n2 -- n3;\n",
      "n4 [label=\"Punctuation: |\", shape=plaintext, fontsize=8, fontname=Arial];\n",
      "n2 -- n4;\n",
      "n0 -- n2;\n",
      "\x7d\n"]
    GraphWriter.WritesLines .bare ∧ t.isDescribed ∧ u.isDescribed ∧
      ∃ g g', (Viewer.draw {} t).1 = some g ∧ (Viewer.draw { count := 2 } u).1 = some g' ∧
        g.text .bare = text ∧ g'.text .bare = text ∧ t.Resembles u ∧ t ≠ u := by
  intro below t u text
  have hw : GraphWriter.WritesLines .bare := ⟨_, fun _ _ => rfl⟩
  have ht : t.isDescribed := by decide
  have hu : u.isDescribed := by decide
  obtain ⟨g, g', drawn, drawn', same, -⟩ :=
    Viewer.draw_text_inj hw (v := {}) (w := { count := 2 }) rfl rfl ht hu
  have first : (Viewer.draw {} t).1.map (Graph.text .bare) = some text := by decide +kernel
  have second : (Viewer.draw { count := 2 } u).1.map (Graph.text .bare) = some text := by
    decide +kernel
  rw [drawn] at first
  rw [drawn'] at second
  have first : g.text .bare = text := Option.some.inj first
  have second : g'.text .bare = text := Option.some.inj second
  exact ⟨hw, ht, hu, g, g', drawn, drawn', first, second, same (first.trans second.symm),
    by decide⟩

end GrammarNotation
