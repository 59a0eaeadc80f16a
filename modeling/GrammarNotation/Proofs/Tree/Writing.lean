import GrammarNotation.Proofs.Tree.Legible
import GrammarNotation.Proofs.Tree.Levels
import GrammarNotation.Tree.Outline

/-!
# Reading a written tree

Both ways of writing a tree show the level of each node and its description, so that the tree can
be read back: a line of an outline has two characters for each level, none of which begins a
description, and a line of a trace has four blanks for each.

## Main definitions

- `Tree.readLine` — the level and the description that a line of an outline shows
- `Tree.levelLine` — the line of a node in a trace, from its level and its description

## Main statements

- `Tree.map_readLine_outline`, `Tree.toList_trace` — what is written are the levels of the tree
- `Tree.written_inj` — trees that are written alike are the same
-/

namespace GrammarNotation

namespace Tree

variable {t u : Tree} {own below : String} {k : Nat}

/-! ### Outlines -/

/-- The characters that stand first in the two places of a level. -/
def isPieceStart (c : Char) : Bool := c = '┣' || c = '┗' || c = '┃' || c = ' '

/-- **The level and the description that a line of an outline shows**: two characters for each
level, and behind them the description. -/
def readLine : List Char → Nat × List Char
  | c :: d :: cs =>
    if isPieceStart c then ((readLine cs).1 + 1, (readLine cs).2) else (0, c :: d :: cs)
  | cs => (0, cs)

/-- A text that stands for `k` levels in front of a description. -/
def Indents (front : String) (k : Nat) : Prop :=
  ∀ cs, readLine (front.toList ++ cs) = ((readLine cs).1 + k, (readLine cs).2)

theorem indents_empty : Indents "" 0 := fun _ => rfl

theorem indents_connector (isLast : Bool) : Indents (connector isLast) 1 := by
  cases isLast <;> exact fun _ => rfl

theorem indents_continuation (isLast : Bool) : Indents (continuation isLast) 1 := by
  cases isLast <;> exact fun _ => rfl

/-- No description begins like a level. -/
theorem readLine_description {r : Role} (h : r.isDescribed) :
    readLine r.description.toList = (0, r.description.toList) := by
  cases r with
  | blank => cases h
  | _ => simp [Role.description, Role.description?, readLine, isPieceStart]

/-- **An outline shows the levels of the tree.** -/
theorem map_readLine_outline (h : t.isDescribed) (hown : Indents own k) (hbelow : Indents below k) :
    (t.outline own below).map (fun line => readLine line.toList) =
      (t.levels k).map fun e => (e.1, e.2.toList) := by
  induction t using Tree.preorder.induct
    (motive_2 := fun ts => (preorderAll ts).all (·.role.isDescribed) →
      (outlineAll ts).map (fun line => readLine line.toList) =
        (levelsAll 1 ts).map fun e => (e.1, e.2.toList))
    generalizing own below k with
  | case1 r cs ih =>
    simp only [isDescribed, preorder, List.all_cons, Bool.and_eq_true, role_node] at h
    have first : readLine (own ++ r.description).toList = (k, r.description.toList) := by
      rw [String.toList_append, hown, readLine_description h.1, Nat.zero_add]
    have others : (outlineAll cs).map (fun line => readLine (below ++ line).toList) =
        ((outlineAll cs).map fun line => readLine line.toList).map fun e => (e.1 + k, e.2) := by
      rw [List.map_map]
      refine List.map_congr_left fun line _ => ?_
      rw [String.toList_append]
      exact hbelow line.toList
    simp only [outline, levels, List.map_cons, List.map_map, Function.comp_def] at others ⊢
    rw [first, others, Nat.add_comm k 1, levelsAll_add, List.map_map]
    have children := congrArg (List.map fun e : Nat × List Char => (e.1 + k, e.2)) (ih h.2)
    simp only [List.map_map, Function.comp_def] at children ⊢
    rw [children]
  | case2 => rfl
  | case3 t ts iht ihts =>
    rename_i h
    simp only [preorderAll, List.all_append, Bool.and_eq_true] at h
    rw [outlineAll, levelsAll, List.map_append, List.map_append, ihts h.2,
      iht h.1 (indents_connector _) (indents_continuation _)]

/-- Outlines show the shape of the tree and every description. -/
theorem resembles_of_outline_eq (ht : t.isDescribed) (hu : u.isDescribed)
    (h : t.outline "" "" = u.outline "" "") : t.Resembles u := by
  have lines := congrArg (List.map fun line : String => readLine line.toList) h
  rw [map_readLine_outline ht indents_empty indents_empty,
    map_readLine_outline hu indents_empty indents_empty] at lines
  have injective : Function.Injective fun e : Nat × String => (e.1, e.2.toList) := by
    intro d e eq
    obtain ⟨level, chars⟩ := Prod.mk.inj eq
    exact Prod.ext level (String.toList_inj.1 chars)
  exact resembles_of_levels_eq (List.map_injective_iff.2 injective lines)

/-! ### Traces -/

/-- The line of a node in a trace, from its level and its description. -/
def levelLine (e : Nat × String) : List Char :=
  List.replicate (4 * e.1) ' ' ++ ("(ASTNode ".toList ++ (e.2.toList ++ ")\n".toList))

/-- **A trace shows the levels of the tree.** -/
theorem toList_trace (t : Tree) : t.trace.toList = (t.levels 0).flatMap levelLine := by
  have key : ∀ indentation : String, indentation.toList = List.replicate (4 * 0) ' ' →
      (t.indented indentation).flatMap (fun placed => (traceLine placed).toList) =
        (t.levels 0).flatMap levelLine := by
    generalize 0 = k
    induction t using Tree.preorder.induct
      (motive_2 := fun ts => ∀ (k : Nat) (indentation : String),
        indentation.toList = List.replicate (4 * k) ' ' →
        (indentedAll indentation ts).flatMap (fun placed => (traceLine placed).toList) =
          (levelsAll k ts).flatMap levelLine) generalizing k with
    | case1 r cs ih =>
      intro indentation blanks
      have deeper : (indentation ++ tab).toList = List.replicate (4 * (k + 1)) ' ' := by
        rw [String.toList_append, blanks, Nat.mul_succ, List.replicate_add]
        rfl
      rw [indented, levels, List.flatMap_cons, List.flatMap_cons, ih (k + 1) _ deeper]
      simp [traceLine, levelLine, blanks]
    | case2 => rfl
    | case3 t ts iht ihts =>
      rename_i k indentation blanks
      rw [indentedAll, levelsAll, List.flatMap_append, List.flatMap_append, iht k _ blanks,
        ihts k _ blanks]
  rw [trace, String.toList_ofList]
  exact key "" rfl

/-- The blanks of a line end at the bracket, and the line at the newline. -/
theorem levelLine_append_inj {a b : Nat × String} {v w : List Char} (ha : '\n' ∉ a.2.toList)
    (hb : '\n' ∉ b.2.toList) (h : levelLine a ++ v = levelLine b ++ w) : a = b ∧ v = w := by
  have blanks : ∀ n, ∀ c ∈ List.replicate n ' ', c = ' ' := by simp
  simp only [levelLine, List.append_assoc] at h
  obtain ⟨level, line⟩ := Text.append_inj_of_head (blanks _) (blanks _) (by simp) (by simp) h
  have level : 4 * a.1 = 4 * b.1 := by simpa using congrArg List.length level
  have line : (a.2.toList ++ [')']) ++ '\n' :: v = (b.2.toList ++ [')']) ++ '\n' :: w := by
    simpa using line
  have noNewline : ∀ {s : String}, '\n' ∉ s.toList → '\n' ∉ s.toList ++ [')'] := by simp
  obtain ⟨text, rest⟩ := Text.append_inj_of_notMem (noNewline ha) (noNewline hb) line
  refine ⟨Prod.ext (by omega) ?_, rest⟩
  exact String.toList_inj.1 (List.append_cancel_right text)

/-! ### Legible trees -/

theorem newline_notMem_levels (h : t.IsLegible) : ∀ e ∈ t.levels k, '\n' ∉ e.2.toList := by
  intro e mem
  have shown : e.2 ∈ (t.levels k).map Prod.snd := List.mem_map_of_mem mem
  rw [map_snd_levels] at shown
  obtain ⟨node, within, eq⟩ := List.mem_map.1 shown
  exact eq ▸ (h node within).oneLine

theorem newline_notMem_outline (h : t.IsLegible) (hown : '\n' ∉ own.toList)
    (hbelow : '\n' ∉ below.toList) : ∀ line ∈ t.outline own below, '\n' ∉ line.toList := by
  have piece : ∀ isLast,
      '\n' ∉ (connector isLast).toList ∧ '\n' ∉ (continuation isLast).toList := by
    decide
  induction t using Tree.preorder.induct
    (motive_2 := fun ts => AllLegible ts → ∀ line ∈ outlineAll ts, '\n' ∉ line.toList)
    generalizing own below with
  | case1 r cs ih =>
    obtain ⟨role, children⟩ := isLegible_node.1 h
    rw [outline, List.forall_mem_cons, List.forall_mem_map]
    refine ⟨by simp [hown, role.oneLine], ?_⟩
    intro line mem
    simp [hbelow, ih children line mem]
  | case2 =>
    rename_i mem
    cases mem
  | case3 t ts iht ihts =>
    rename_i h line mem
    obtain ⟨first, others⟩ := allLegible_cons.1 h
    rw [outlineAll, List.mem_append] at mem
    rcases mem with mem | mem
    · exact iht first (piece _).1 (piece _).2 line mem
    · exact ihts others line mem

theorem eq_of_resembles (ht : t.IsLegible) (hu : u.IsLegible) (h : t.Resembles u) : t = u := by
  induction t using Tree.preorder.induct
    (motive_2 := fun ts => ∀ us, AllLegible ts → AllLegible us → ResembleAll ts us → ts = us)
    generalizing u with
  | case1 r cs ih =>
    obtain ⟨q, ds⟩ := u
    obtain ⟨hr, hcs⟩ := isLegible_node.1 ht
    obtain ⟨hq, hds⟩ := isLegible_node.1 hu
    rw [Role.eq_of_description_eq hr hq h.1, ih ds hcs hds h.2]
  | case2 =>
    rename_i us _ _ h
    cases us with
    | nil => rfl
    | cons u us => cases h
  | case3 t ts iht ihts =>
    rename_i us hts hus h
    cases us with
    | nil => cases h
    | cons u us =>
      obtain ⟨ht, hts⟩ := allLegible_cons.1 hts
      obtain ⟨hu, hus⟩ := allLegible_cons.1 hus
      rw [iht ht hu h.1, ihts us hts hus h.2]

theorem eq_of_drawing_eq (ht : t.IsLegible) (hu : u.IsLegible) (h : t.drawing = u.drawing) :
    t = u := by
  have lines : ∀ {t : Tree}, t.IsLegible →
      (['\n'].intercalate ((t.outline "" "").map String.toList)).splitOn '\n' =
        (t.outline "" "").map String.toList := by
    intro t ht
    refine List.splitOn_intercalate '\n' ?_ ?_
    · exact List.forall_mem_map.2 (newline_notMem_outline ht (by simp) (by simp))
    · cases t
      exact List.cons_ne_nil _ _
  have outlines := congrArg (List.splitOn '\n') (String.ofList_injective h)
  rw [lines ht, lines hu] at outlines
  have injective : Function.Injective String.toList := fun r s => String.toList_inj.1
  exact eq_of_resembles ht hu (resembles_of_outline_eq ht.isDescribed hu.isDescribed
    (List.map_injective_iff.2 injective outlines))

theorem eq_of_trace_eq (ht : t.IsLegible) (hu : u.IsLegible) (h : t.trace = u.trace) : t = u := by
  have chars := congrArg String.toList h
  rw [toList_trace, toList_trace] at chars
  have levels : t.levels 0 = u.levels 0 := by
    refine Text.flatMap_append_inj levelLine [] ?_ ?_ (by simpa using chars)
    · intro a ha b hb v w
      exact levelLine_append_inj (newline_notMem_levels ht a ha) (newline_notMem_levels hu b hb)
    · simp [levelLine]
  exact eq_of_resembles ht hu (resembles_of_levels_eq levels)

/-- **Trees that are written alike are the same**, in either way of writing, if parsers returned
them, whatever the vocabularies, the modes and the counters were. The lines of any other trees show
the shape and the descriptions, as long as every node has one. -/
theorem written_inj :
    (∀ t u : Tree, t.IsParsed → u.IsParsed →
      (t.drawing = u.drawing → t = u) ∧ (t.trace = u.trace → t = u)) ∧
    ∀ t u : Tree, t.isDescribed → u.isDescribed → t.outline "" "" = u.outline "" "" →
      t.Resembles u := by
  refine ⟨?_, fun t u => resembles_of_outline_eq⟩
  intro t u ht hu
  exact ⟨eq_of_drawing_eq ht.isLegible hu.isLegible, eq_of_trace_eq ht.isLegible hu.isLegible⟩

/-- A lenient and a strict parser return one tree, in which two literals look like connectors. -/
theorem written_inj_boxes :
    let p := (Parser.ofSource {}
      "grammar g tokens \x7b id : \"┃ ┗╸\" \x7d productions \x7b S : 'a' ( T | \"┣╸ x\" ) \x7d").1
    let q := (Parser.ofSource { mode := { strict := true } }
      "grammar g;\ntokens \x7b id: \"┃ ┗╸\" \x7d\nproductions \x7b S: 'a' (T | '┣╸ x'); \x7d").1
    let t := (p.parse 2).parser.tree
    let u := (q.parse 2).parser.tree
    let lines := [
      "Root Node",
      "┣╸Grammar: g",
      "┣╸Token: (id, ┃ ┗╸)",
      "┗╸Production[3]",
      "  ┣╸lhs: S",
      "  ┣╸Terminal: a",
      "  ┣╸Punctuation: (",
      "  ┣╸Nonterminal: T",
      "  ┣╸Punctuation: |",
      "  ┣╸Terminal: ┣╸ x",
      "  ┗╸Punctuation: )"]
    t.IsParsed ∧ u.IsParsed ∧ t.outline "" "" = lines ∧ u.outline "" "" = lines ∧
      t.drawing = u.drawing ∧ t.trace = u.trace ∧ t = u ∧ t.Resembles u := by
  intro p q t u lines
  have ht : t.IsParsed := ⟨p, 2, .opened _ _, by decide +kernel⟩
  have hu : u.IsParsed := ⟨q, 2, .opened _ _, by decide +kernel⟩
  have first : t.outline "" "" = lines := by decide +kernel
  have second : u.outline "" "" = lines := by decide +kernel
  have outline : t.outline "" "" = u.outline "" "" := first.trans second.symm
  have indented : t.indented "" = u.indented "" := by decide +kernel
  have drawing : t.drawing = u.drawing := congrArg Text.unlines outline
  have trace : t.trace = u.trace := by rw [Tree.trace, Tree.trace, indented]
  exact ⟨ht, hu, first, second, drawing, trace, (written_inj.1 t u ht hu).1 drawing,
    written_inj.2 t u ht.isLegible.isDescribed hu.isLegible.isDescribed outline⟩

end Tree

end GrammarNotation
