import GrammarNotation.Proofs.Reading.Parse
import GrammarNotation.Proofs.Tree.FlatForm
import Mathlib.Logic.ExistsUnique

/-!
# Trees are well formed at any time

A parser puts nodes into its tree as it goes, and may give up at any token. Still its tree is well
formed whenever it stops: each production in it has a head and the flat form of one expression,
with closing brackets also where the description leaves them out.

## Main definitions

- `IsFlatBody` — the roles are the flat form of exactly one expression
- `Tree.IsEntry`, `Tree.WellFormed` — what a child of the root, and a tree, has to look like
- `Goal.Fills` — what meeting a goal may make of the body of a production
- `Goal.Safe` — whatever the goals make of the body, every production ends with a flat form

## Main statements

- `ReadingSteps.isSound` — a reading never puts anything else into the tree
- `Parser.wellFormed_tree_of_parses` — the tree is well formed after any number of parses

## Design notes

The body of a production is one flat list to which goals deep in the stack append. What they owe
to it is therefore said of the whole stack: `Goal.Safe` goes through the goals and collects what
each may append, up to the goal that ends the production.
-/

namespace GrammarNotation

/-! ### Well-formed trees -/

/-- **The roles are the flat form of exactly one expression**, so that there is no head among them,
brackets match, and no term is missing. -/
structure IsFlatBody (roles : List Role) : Prop where
  existsUnique : ∃! e : Expression, e.roles = roles
  noHead : ∀ name, .head name ∉ roles
  matchesBrackets : matchesBrackets [] roles
  leavesNoGap : leavesNoGap true roles

theorem Expression.isFlatBody_roles (e : Expression) : IsFlatBody e.roles where
  existsUnique := ⟨e, rfl, fun _ h => Expression.roles_injective h⟩
  noHead := e.head_notMem_roles
  matchesBrackets := e.matchesBrackets_roles
  leavesNoGap := e.leavesNoGap_roles

/-- A child of the root: a name of a grammar or a token, without children, or a production over a
head and a flat body, all without children. -/
inductive Tree.IsEntry : Tree → Prop
  | grammar {name : String} : IsEntry (.leaf (.grammar name))
  | token {name pattern : String} : IsEntry (.leaf (.token name pattern))
  | production {number : Nat} {name : String} {roles : List Role} : IsFlatBody roles →
      IsEntry (productionNode number name roles)

/-- The tree of a description, or of a part of one. -/
structure Tree.WellFormed (t : Tree) : Prop where
  role_eq : t.role = .root
  isEntry : ∀ c ∈ t.children, c.IsEntry

/-! ### What goals make of a body -/

/-- The body of a production that is complete. -/
def IsRuleBody (body : List Tree) : Prop :=
  ∃ (name : String) (e : Expression), body = (.head name :: e.roles).map Tree.leaf

/-- What meeting a goal may make of the body of a production. -/
def Goal.Fills : Goal → List Tree → List Tree → Prop
  | .expression, body, body' => ∃ e : Expression, body' = body ++ e.roles.map .leaf
  | .alternatives, body, body' =>
    body' = body ∨ ∃ e : Expression, body' = body ++ (.mark .bar :: e.roles).map .leaf
  | .term, body, body' => ∃ t : Term, body' = body ++ t.roles.map .leaf
  | .factors, body, body' => body' = body ∨ ∃ t : Term, body' = body ++ t.roles.map .leaf
  | .factor, body, body' => ∃ f : Factor, body' = body ++ f.roles.map .leaf
  | .code, body, body' => ∃ code, body' = body ++ [.leaf (.action code)]
  | .closing b, body, body' => body' = body ++ [.leaf (.mark (.closing b))]
  | .endProduction _ _, _, body' => body' = []
  | .sections, _, _ | .productions, _, _ | .production, _, _ => True
  | .grammarName, body, body' | .separator _, body, body' | .entries, body, body'
  | .pattern _, body, body' | .commit, body, body' => body' = body

/-- What meeting goals one after the other may make of the body. -/
def Goal.AllFill : List Goal → List Tree → List Tree → Prop
  | [], body, body' => body' = body
  | g :: goals, body, body' => ∃ middle, g.Fills body middle ∧ AllFill goals middle body'

/-- What a goal needs of the body: a production ends with a head and an expression. -/
def Goal.Needs : Goal → List Tree → Prop
  | .endProduction _ _, body => IsRuleBody body
  | _, _ => True

/-- **Every goal finds what it needs**, whatever the goals in front of it make of the body. -/
def Goal.Safe : List Goal → List Tree → Prop
  | [], _ => True
  | g :: goals, body => g.Needs body ∧ ∀ body', g.Fills body body' → Safe goals body'

namespace Goal

variable {g : Goal} {goals new after : List Goal} {body body' : List Tree}

theorem allFill_singleton : AllFill [g] body body' ↔ g.Fills body body' := by
  constructor
  · rintro ⟨_, fills, rfl⟩
    exact fills
  · intro fills
    exact ⟨body', fills, rfl⟩

/-- Goals in front of others are safe if the others are, whatever the first ones make of the
body. -/
theorem Safe.append (first : Safe new body)
    (others : ∀ body', AllFill new body body' → Safe goals body') : Safe (new ++ goals) body := by
  induction new generalizing body with
  | nil => exact others body rfl
  | cons g new ih =>
    refine ⟨first.1, ?_⟩
    intro middle fills
    apply ih (first.2 middle fills)
    intro body' all
    exact others body' ⟨middle, fills, all⟩

/-- Goals that end no production are safe. -/
theorem safe_of_needs (h : ∀ g ∈ goals, ∀ body, g.Needs body) (body : List Tree) :
    Safe goals body := by
  induction goals generalizing body with
  | nil => trivial
  | cons g goals ih =>
    rw [List.forall_mem_cons] at h
    exact ⟨h.1 body, fun body' _ => ih h.2 body'⟩

/-! ### Factors, terms and expressions -/

theorem fills_term_of_factor (f : Factor)
    (others : Goal.factors.Fills (body ++ f.roles.map .leaf) body') :
    Goal.term.Fills body body' := by
  rcases others with rfl | ⟨t, rfl⟩
  · exact ⟨.one f, rfl⟩
  · exact ⟨.more f t, by simp [Term.roles]⟩

theorem fills_expression_of_term {middle : List Tree} (first : Goal.term.Fills body middle)
    (others : Goal.alternatives.Fills middle body') : Goal.expression.Fills body body' := by
  obtain ⟨t, rfl⟩ := first
  rcases others with rfl | ⟨e, rfl⟩
  · exact ⟨.one t, rfl⟩
  · exact ⟨.more t e, by simp [Expression.roles]⟩

/-- A goal that begins with a factor appends this factor, and what is left of the goal the rest. -/
theorem fills_of_factor (begins : g.afterFactor? = some after) (f : Factor)
    (others : AllFill after (body ++ f.roles.map .leaf) body') : g.Fills body body' := by
  cases g <;> simp only [afterFactor?, Option.some.injEq, reduceCtorEq] at begins <;> subst begins
  · obtain ⟨middle, factors, others⟩ := others
    exact fills_expression_of_term (fills_term_of_factor f factors)
      (allFill_singleton.1 others)
  · exact fills_term_of_factor f (allFill_singleton.1 others)
  · exact .inr (fills_term_of_factor f (allFill_singleton.1 others))
  · exact ⟨f, others⟩

theorem fills_of_production (begins : g.afterProduction? = some after) : g.Fills body body' := by
  cases g <;> simp [afterProduction?] at begins <;> trivial

theorem needs_of_mem_afterFactor (begins : g.afterFactor? = some after) :
    ∀ g' ∈ after, ∀ body, g'.Needs body := by
  cases g <;> simp only [afterFactor?, Option.some.injEq, reduceCtorEq] at begins <;>
    subst begins <;> simp [Needs]

theorem needs_of_mem_afterProduction (begins : g.afterProduction? = some after) :
    ∀ g' ∈ after, ∀ body, g'.Needs body := by
  cases g <;> simp only [afterProduction?, Option.some.injEq, reduceCtorEq] at begins <;>
    subst begins <;> simp [Needs]

end Goal

/-! ### Steps -/

/-- Everything in the tree, and everything that is to be put into it, is an entry. -/
def Draft.IsSound (d : Draft) : Prop :=
  ∀ t ∈ d.children ++ d.pending, t.IsEntry

theorem Draft.IsSound.add {d : Draft} {t : Tree} (h : d.IsSound) (isEntry : t.IsEntry) :
    (d.add t).IsSound := by
  intro c mem
  rw [Draft.add, ← List.append_assoc, List.mem_append, List.mem_singleton] at mem
  rcases mem with mem | rfl
  · exact h c mem
  · exact isEntry

theorem Draft.IsSound.commit {d : Draft} (h : d.IsSound) : d.commit.IsSound := by
  intro c mem
  rw [Draft.commit, List.append_nil] at mem
  exact h c mem

theorem Draft.IsSound.endProduction {d : Draft} (h : d.IsSound) {number : Nat} {name : String}
    (complete : IsRuleBody d.body) : (d.endProduction number name).IsSound := by
  obtain ⟨head, e, eq⟩ := complete
  have isEntry : (Tree.node (.production number) d.body).IsEntry := by
    rw [eq]
    exact .production e.isFlatBody_roles
  exact h.add isEntry

section Steps

open Goal

variable {m : Mode} {depth : Nat} {g : Goal} {goals new : List Goal} {d d' : Draft} {t : Token}

/-- What the new goals make of the body is what the goal that set them may make of it. -/
theorem Takes.fills (takes : Takes m depth d t g new d') {body' : List Tree}
    (all : AllFill new d'.body body') : g.Fills d.body body' := by
  cases takes with
  | comment | grammarSection | tokenSection | productionSection => trivial
  | grammarName =>
    exact allFill_singleton.1 all
  | separator => exact all
  | entry =>
    obtain ⟨_, rfl, _, rfl, all⟩ := all
    exact allFill_singleton.1 all
  | skipEntry => exact allFill_singleton.1 all
  | pattern => exact all
  | skipPattern => exact all
  | production begins => exact fills_of_production begins
  | nonterminal begins => exact fills_of_factor begins (.nonterminal t.text) all
  | terminal begins => exact fills_of_factor begins (.terminal t.text) all
  | @group g after b begins =>
    -- The closing mark is attached in any case, whether or not the bracket is there.
    obtain ⟨_, ⟨e, rfl⟩, _, rfl, _, rfl, all⟩ := all
    refine fills_of_factor begins (.enclosed b e) ?_
    simpa [Draft.attach, Factor.roles] using all
  | action begins =>
    obtain ⟨_, ⟨code, rfl⟩, all⟩ := all
    exact fills_of_factor begins (.action code) all
  | bar =>
    obtain ⟨middle, term, others⟩ := all
    obtain ⟨e, rfl⟩ := fills_expression_of_term term (allFill_singleton.1 others)
    exact .inr ⟨e, by simp [Draft.attach]⟩
  | code => exact ⟨t.text, allFill_singleton.1 all⟩

theorem Takes.safe (takes : Takes m depth d t g new d') : Safe new d'.body := by
  cases takes with
  | production begins =>
    -- The only goals that need something: behind the head there will be an expression.
    refine ⟨trivial, ?_⟩
    rintro _ rfl
    refine ⟨trivial, ?_⟩
    rintro _ ⟨e, rfl⟩
    refine ⟨trivial, ?_⟩
    rintro _ rfl
    refine ⟨⟨t.text, e, rfl⟩, ?_⟩
    intro body' _
    exact safe_of_needs (needs_of_mem_afterProduction begins) body'
  | nonterminal begins => exact safe_of_needs (needs_of_mem_afterFactor begins) _
  | terminal begins => exact safe_of_needs (needs_of_mem_afterFactor begins) _
  | group begins =>
    refine safe_of_needs ?_ _
    simpa [Needs] using needs_of_mem_afterFactor begins
  | action begins =>
    refine safe_of_needs ?_ _
    simpa [Needs] using needs_of_mem_afterFactor begins
  | _ => exact safe_of_needs (by simp [Needs, Rule.goals]) _

theorem Takes.isSound (takes : Takes m depth d t g new d') (h : d.IsSound) : d'.IsSound := by
  cases takes with
  | grammarName => exact h.add .grammar
  | pattern => exact h.add .token
  | _ => exact h

theorem Passes.fills (passes : Passes m d t g d') : g.Fills d.body d'.body := by
  cases passes with
  | factors | alternatives => exact .inl rfl
  | productions => trivial
  | _ => rfl

theorem Passes.isSound (passes : Passes m d t g d') (h : d.IsSound) (needs : g.Needs d.body) :
    d'.IsSound := by
  cases passes with
  | endProduction => exact h.endProduction needs
  | commit => exact h.commit
  | _ => exact h

theorem Concludes.fills (concludes : Concludes m d g d') : g.Fills d.body d'.body := by
  cases concludes with
  | separator => rfl
  | factors | alternatives => exact .inl rfl
  | _ => trivial

theorem Concludes.isSound (concludes : Concludes m d g d') (h : d.IsSound)
    (needs : g.Needs d.body) : d'.IsSound := by
  cases concludes with
  | endProduction => exact h.endProduction needs
  | commit => exact h.commit
  | _ => exact h

/-- A moment in a reading at which nothing but entries is in the tree, or will be. -/
structure Configuration.IsSound (c : Configuration) : Prop where
  draft : c.draft.IsSound
  safe : Safe c.goals c.draft.body

theorem ReadingStep.isSound {c c' : Configuration} (step : ReadingStep m c c') (h : c.IsSound) :
    c'.IsSound := by
  obtain ⟨sound, safe⟩ := h
  cases step with
  | take takes =>
    refine ⟨takes.isSound sound, ?_⟩
    apply takes.safe.append
    intro body' all
    exact safe.2 body' (takes.fills all)
  | pass passes => exact ⟨passes.isSound sound safe.1, safe.2 _ passes.fills⟩
  | conclude done =>
    have concludes := concludes_of_conclude_eq done
    exact ⟨concludes.isSound sound safe.1, safe.2 _ concludes.fills⟩

/-- A reading never puts anything but entries into the tree. -/
theorem ReadingSteps.isSound {c c' : Configuration} (steps : ReadingSteps m c c')
    (h : c.IsSound) : c'.IsSound :=
  steps.keeps ReadingStep.isSound h

/-- Whether or not it ends in a fault, a reading leaves nothing but entries in the tree. -/
theorem isSound_read {ts : List Token} (sound : d.IsSound) (safe : Safe goals d.body) :
    (read m goals d ts).draft.IsSound := by
  obtain ⟨c, steps, stops⟩ := exists_stops_of_read m goals d ts
  rw [stops.draft_eq]
  exact (steps.isSound ⟨sound, safe⟩).draft

end Steps

namespace Parser

theorem wellFormed_tree_iff (p : Parser) : p.tree.WellFormed ↔ ∀ t ∈ p.children, t.IsEntry :=
  ⟨fun h => h.isEntry, fun h => ⟨rfl, h⟩⟩

/-- A parse keeps the tree well formed, whether it succeeds or fails. -/
theorem wellFormed_tree_parse {p : Parser} (h : p.tree.WellFormed) (c : Nat) :
    (p.parse c).parser.tree.WellFormed := by
  rw [wellFormed_tree_iff] at h
  have start : (Draft.resume p.children [] c).IsSound := by simpa [Draft.IsSound, Draft.resume]
  have sound : (p.reading c).draft.IsSound :=
    isSound_read start ⟨trivial, fun _ _ => trivial⟩
  rw [tree_parse]
  exact ⟨rfl, fun t mem => sound t (List.mem_append_left _ mem)⟩

/-- **The tree of a parser is well formed at any time**: whatever the source, the symbols, the
keywords, the mode and the depth limit are, and after any number of parses, each with any counter
and each ending in success or in any fault. -/
theorem wellFormed_tree_of_parses (s : Settings) (source : String) (counters : List Nat) :
    (counters.foldl (fun p c => (p.parse c).parser) (ofSource s source).1).tree.WellFormed := by
  have start : (ofSource s source).1.tree.WellFormed := ⟨rfl, by simp [tree, ofSource, ofTokens]⟩
  generalize (ofSource s source).1 = p at start ⊢
  induction counters generalizing p with
  | nil => exact start
  | cons c counters ih => exact ih _ (wellFormed_tree_parse start c)

end Parser

end GrammarNotation
