import GrammarNotation.Proofs.Reading.Stages
import GrammarNotation.Tree.Traversal

/-!
# What becomes of the tokens

Identifiers, literals, bars and the brackets of options and groups stand for themselves in the
tree. A reading that warns of nothing puts all of them there, each one once and in order, whatever
separators it does without.

## Main definitions

- `Role.spelling`, `Tree.spelling` — the tokens that a node, or a tree, was read from
- `treeTokens` — the tokens of a list that the tree keeps
- `Configuration.spelling` — those that were read so far and those that are still ahead

## Main statements

- `ReadingStep.spelling_eq` — a step that warns of nothing moves them from the tokens to the nodes
- `spelling_read` — so does a whole reading

## Design notes

Opening braces are left out, since those of sections do not go to the tree.
-/

namespace GrammarNotation

/-! ### Nodes and tokens -/

/-- The tokens that a node was read from, those of its children apart. -/
def Role.spelling : Role → List Token
  | .grammar name | .head name | .nonterminal name => [⟨.identifier, name, none⟩]
  | .token name pattern => [⟨.identifier, name, none⟩, ⟨.literal, pattern, none⟩]
  | .terminal text | .action text => [⟨.literal, text, none⟩]
  | .mark m => if m.text ∈ treeSymbols then [.ofSymbol m.text] else []
  | .root | .production _ | .blank => []

/-- The tokens that a tree was read from, in the order of its nodes. -/
def Tree.spelling (t : Tree) : List Token :=
  t.preorder.flatMap (·.role.spelling)

/-- The tokens that the trees of a list were read from. -/
def Tree.spellingAll (ts : List Tree) : List Token :=
  (preorderAll ts).flatMap (·.role.spelling)

/-- Tells whether the tree keeps a token. -/
def Token.staysInTree (t : Token) : Bool :=
  match t.kind with
  | .identifier | .literal => true
  | .symbol => treeSymbols.contains t.text
  | _ => false

/-- The tokens that the tree keeps, without their positions. -/
def treeTokens (ts : List Token) : List Token :=
  (ts.filter Token.staysInTree).map Token.unplaced

namespace Tree

@[simp]
theorem spellingAll_nil : spellingAll [] = [] := rfl

@[simp]
theorem spellingAll_append (ss ts : List Tree) :
    spellingAll (ss ++ ts) = spellingAll ss ++ spellingAll ts := by
  simp [spellingAll, preorderAll_append]

@[simp]
theorem spellingAll_node (r : Role) (cs : List Tree) :
    spellingAll [.node r cs] = r.spelling ++ spellingAll cs := by
  simp [spellingAll, preorderAll, preorder]

@[simp]
theorem spellingAll_leaf (r : Role) : spellingAll [.leaf r] = r.spelling := by
  rw [leaf, spellingAll_node, spellingAll_nil, List.append_nil]

theorem spelling_root (cs : List Tree) : (node .root cs).spelling = spellingAll cs := by
  simp [spelling, preorder, spellingAll, Role.spelling]

end Tree

section Tokens

variable {t : Token}

theorem treeTokens_cons (t : Token) (ts : List Token) :
    treeTokens (t :: ts) = treeTokens [t] ++ treeTokens ts := by
  rw [← List.singleton_append, treeTokens, List.filter_append, List.map_append]
  rfl

theorem treeTokens_of_kind {k : TokenClass} (kind : t.kind = k)
    (h : k = .identifier ∨ k = .literal) : treeTokens [t] = [⟨k, t.text, none⟩] := by
  rcases h with rfl | rfl <;> simp [treeTokens, Token.staysInTree, kind, Token.unplaced]

theorem treeTokens_of_isSymbol {s : String} (h : t.isSymbol s) :
    treeTokens [t] = if s ∈ treeSymbols then [.ofSymbol s] else [] := by
  obtain ⟨kind, rfl⟩ := Token.isSymbol_iff.1 h
  split <;> simp_all [treeTokens, Token.staysInTree, Token.unplaced, Token.ofSymbol]

theorem treeTokens_of_other {k : TokenClass} (kind : t.kind = k)
    (h : k = .comment ∨ k = .keyword) : treeTokens [t] = [] := by
  rcases h with rfl | rfl <;> simp [treeTokens, Token.staysInTree, kind]

end Tokens

/-! ### Steps -/

/-- The tokens that the nodes of a draft were read from. -/
def Draft.spelling (d : Draft) : List Token :=
  Tree.spellingAll d.children ++ Tree.spellingAll d.pending ++ Tree.spellingAll d.body

/-- The name that was read in front of a pattern and is not in the tree yet. -/
def Goal.awaited (goals : List Goal) : List Token :=
  (awaited? goals).toList.map fun name => ⟨.identifier, name, none⟩

/-- The tokens that the tree keeps, whether they were read or are ahead. -/
def Configuration.spelling (c : Configuration) : List Token :=
  c.draft.spelling ++ Goal.awaited c.goals ++ treeTokens c.rest

namespace Draft

variable (d : Draft)

theorem spelling_attach (r : Role) : (d.attach r).spelling = d.spelling ++ r.spelling := by
  simp [spelling, attach]

theorem spelling_commit : d.commit.spelling = d.spelling := by
  simp [spelling, commit]

theorem spelling_endProduction (number : Nat) (name : String) :
    (d.endProduction number name).spelling = d.spelling := by
  simp [spelling, endProduction, note, add, Role.spelling]

variable {d}

theorem spelling_add (empty : d.body = []) (r : Role) :
    (d.add (.leaf r)).spelling = d.spelling ++ r.spelling := by
  simp [spelling, add, empty]

theorem spelling_beginProduction (empty : d.body = []) (name : String) :
    (d.beginProduction name).spelling = d.spelling ++ [⟨.identifier, name, none⟩] := by
  simp [spelling, beginProduction, empty, Role.spelling]

end Draft

section Steps

open Goal

variable {m : Mode} {depth : Nat} {g : Goal} {goals after new : List Goal} {d d' : Draft}
  {t : Token}

theorem awaited_of_none (none : awaited? goals = none) : awaited goals = [] := by
  rw [awaited, none]
  rfl

theorem awaited_of_fillsBody (fills : g.fillsBody) : awaited (g :: goals) = [] := by
  cases g <;> first | rfl | cases fills

theorem awaited_of_afterProduction? (begins : g.afterProduction? = some after) :
    awaited (g :: goals) = [] := by
  cases g <;> first | rfl | cases begins

/-- A node that is attached for a token takes the place of this token. -/
theorem spelling_eq_of_attach {r : Role} (fills : g.fillsBody)
    (none : awaited? (new ++ goals) = none) (stands : treeTokens [t] = r.spelling) :
    (d.attach r).spelling ++ awaited (new ++ goals) =
      d.spelling ++ awaited (g :: goals) ++ treeTokens [t] := by
  rw [awaited_of_none none, awaited_of_fillsBody fills, stands, Draft.spelling_attach,
    List.append_nil, List.append_nil]

theorem Takes.spelling_eq (takes : Takes m depth d t g new d') (h : Staged (g :: goals) d.body)
    (calm : d'.warnings = d.warnings) :
    d'.spelling ++ awaited (new ++ goals) =
      d.spelling ++ awaited (g :: goals) ++ treeTokens [t] := by
  cases takes with
  | comment kind => rw [treeTokens_of_other kind (.inl rfl), List.append_nil]; rfl
  | grammarSection isKeyword | tokenSection isKeyword | productionSection isKeyword =>
    rw [treeTokens_of_other isKeyword.1 (.inr rfl), List.append_nil]
    rfl
  | grammarName kind =>
    obtain ⟨none, empty, -⟩ := h
    have behind : awaited ([.separator ";"] ++ goals) = [] := awaited_of_none none
    rw [treeTokens_of_kind kind (.inl rfl), Draft.spelling_add empty, behind, List.append_nil]
    simp [Role.spelling, awaited, awaited?]
  | separator isSymbol =>
    rw [treeTokens_of_isSymbol isSymbol, if_neg h.1, List.append_nil]
    rfl
  | entry kind =>
    rw [treeTokens_of_kind kind (.inl rfl)]
    simp [awaited, awaited?]
  | skipEntry => simp at calm
  | pattern kind =>
    obtain ⟨none, empty, -⟩ := h
    rw [treeTokens_of_kind kind (.inr rfl), Draft.spelling_add empty, List.nil_append,
      awaited_of_none none]
    simp [Role.spelling, awaited, awaited?]
  | skipPattern => simp at calm
  | production begins kind =>
    obtain ⟨empty, -, -⟩ := h.after_production begins
    rw [treeTokens_of_kind kind (.inl rfl), Draft.spelling_beginProduction empty,
      awaited_of_afterProduction? begins, List.append_nil]
    exact List.append_nil _
  | nonterminal begins kind =>
    exact spelling_eq_of_attach (fillsBody_of_afterFactor? begins) (h.after_factor begins).1
      (treeTokens_of_kind kind (.inl rfl))
  | terminal begins kind =>
    exact spelling_eq_of_attach (fillsBody_of_afterFactor? begins) (h.after_factor begins).1
      (treeTokens_of_kind kind (.inr rfl))
  | group begins opens =>
    exact spelling_eq_of_attach (fillsBody_of_afterFactor? begins) rfl
      (treeTokens_of_isSymbol opens)
  | action begins opens =>
    rw [treeTokens_of_isSymbol opens, if_neg (by decide),
      awaited_of_fillsBody (fillsBody_of_afterFactor? begins), List.append_nil]
    rfl
  | bar isBar => exact spelling_eq_of_attach rfl rfl (treeTokens_of_isSymbol isBar)
  | code kind =>
    have none : awaited? goals = none := h.1
    exact spelling_eq_of_attach rfl none (treeTokens_of_kind kind (.inr rfl))

theorem awaited_tail (h : Staged (g :: goals) d.body) (other : ∀ name, g ≠ .pattern name) :
    awaited (g :: goals) = awaited goals := by
  cases g with
  | separator => rfl
  | pattern name => exact absurd rfl (other name)
  | _ =>
    have none : awaited? goals = none := h.1
    rw [awaited_of_none none]
    rfl

theorem spelling_attach_closing (b : Bracket) :
    (d.attach (.mark (.closing b))).spelling = d.spelling := by
  have silent : Role.spelling (.mark (.closing b)) = [] := by cases b <;> rfl
  rw [Draft.spelling_attach, silent, List.append_nil]

theorem Passes.spelling_eq (passes : Passes m d t g d') (h : Staged (g :: goals) d.body)
    (calm : d'.warnings = d.warnings) :
    d'.spelling ++ awaited goals = d.spelling ++ awaited (g :: goals) := by
  cases passes with
  | pattern => simp at calm
  | closing => rw [spelling_attach_closing, awaited_tail h (fun _ h => Goal.noConfusion h)]
  | endProduction =>
    rw [Draft.spelling_endProduction, awaited_tail h (fun _ h => Goal.noConfusion h)]
  | commit => rw [Draft.spelling_commit, awaited_tail h (fun _ h => Goal.noConfusion h)]
  | _ => rw [awaited_tail h (fun _ h => Goal.noConfusion h)]

theorem Concludes.spelling_eq (concludes : Concludes m d g d') (h : Staged (g :: goals) d.body) :
    d'.spelling ++ awaited goals = d.spelling ++ awaited (g :: goals) := by
  have other : ∀ name, g ≠ .pattern name := by
    rintro name rfl
    cases concludes
  rw [awaited_tail h other]
  cases concludes with
  | closing => rw [spelling_attach_closing]
  | endProduction => rw [Draft.spelling_endProduction]
  | commit => rw [Draft.spelling_commit]
  | _ => rfl

/-- **A step that warns of nothing moves the tokens that the tree keeps from what is ahead to the
nodes.** -/
theorem ReadingStep.spelling_eq {c c' : Configuration} (step : ReadingStep m c c')
    (h : Staged c.goals c.draft.body) (calm : c'.draft.warnings = c.draft.warnings) :
    c'.spelling = c.spelling := by
  cases step with
  | @take g goals new d d' t ts takes =>
    rw [Configuration.spelling, Configuration.spelling, treeTokens_cons t ts,
      takes.spelling_eq h calm, List.append_assoc]
  | pass passes => rw [Configuration.spelling, Configuration.spelling, passes.spelling_eq h calm]
  | conclude done =>
    have concludes := concludes_of_conclude_eq done
    rw [Configuration.spelling, Configuration.spelling, concludes.spelling_eq h]

theorem ReadingSteps.spelling_eq {c c' : Configuration} (steps : ReadingSteps m c c')
    (h : Staged c.goals c.draft.body) (calm : c'.draft.warnings = c.draft.warnings) :
    c'.spelling = c.spelling := by
  have each := ReadingSteps.calm steps calm
  clear steps calm
  induction each using Relation.ReflTransGen.head_induction_on with
  | refl => rfl
  | head step _ ih =>
    obtain ⟨step, calm⟩ := step
    exact (ih (step.staged h)).trans (step.spelling_eq h calm)

/-- **A description that is read without a fault and without a warning** has its tokens in the
tree, one after the other, as far as the tree keeps them. -/
theorem spelling_read {ts : List Token} (pending : d.pending = []) (body : d.body = [])
    (ok : (read m [.sections] d ts).fault = none)
    (calm : (read m [.sections] d ts).draft.warnings = d.warnings) :
    Tree.spellingAll (read m [.sections] d ts).draft.children =
      Tree.spellingAll d.children ++ treeTokens ts := by
  have staged : Staged [.sections] d.body := by simp [Staged, awaited?, fillsBody, body]
  have same := (steps_of_read ok).spelling_eq staged calm
  rw [rest_read_sections ok] at same
  have pending' := pending_read_sections pending ok
  have body' := body_read staged ok
  simpa [Configuration.spelling, Draft.spelling, awaited, awaited?, pending, body, pending', body',
    treeTokens] using same

end Steps

end GrammarNotation
