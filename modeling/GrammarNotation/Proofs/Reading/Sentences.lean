import GrammarNotation.Description.Sentence
import GrammarNotation.Proofs.Reading.Steps

/-!
# Sentences are read

A reader, strict or lenient, that stands in front of the tokens of a phrase reads just these
tokens and builds what they say. One token of lookahead is enough for this: the token behind a
phrase can neither start a factor nor be a bar.

## Main definitions

- `Draft.extend` — nodes put at the end of the body
- `FollowsTerm`, `FollowsExpression` — what may stand behind a term and an expression
- `Mode.AllowsFrom` — the reader opens groups to a certain depth inside those that are open

## Main statements

- `ExpressionSentence.read_eq` — an expression is read, with its flat form put in the body
- `SectionSentence.read_eq`, `Sentence.read_eq` — a section and a whole description are read

## Design notes

None of this depends on strictness, since a separator that is there is taken by either reader.
-/

namespace GrammarNotation

/-! ### What is built -/

/-- Puts nodes at the end of the body. -/
def Draft.extend (d : Draft) (rs : List Role) : Draft :=
  { d with body := d.body ++ rs.map .leaf }

@[simp]
theorem Draft.extend_extend (d : Draft) (rs qs : List Role) :
    (d.extend rs).extend qs = d.extend (rs ++ qs) := by
  simp [extend]

theorem Draft.attach_eq_extend (d : Draft) (r : Role) : d.attach r = d.extend [r] := rfl

/-! ### Depth -/

/-- The reader may open `depth` more groups inside `count` others. -/
def Mode.AllowsFrom (m : Mode) (count depth : Nat) : Prop :=
  ∀ i < depth, m.allows (count + i)

namespace Mode.AllowsFrom

variable {m : Mode} {count depth depth' : Nat}

theorem mono (h : m.AllowsFrom count depth) (le : depth' ≤ depth) :
    m.AllowsFrom count depth' := by
  intro i lt
  exact h i (Nat.lt_of_lt_of_le lt le)

theorem allows (h : m.AllowsFrom count (depth + 1)) : m.allows count :=
  h 0 (Nat.succ_pos depth)

theorem inner (h : m.AllowsFrom count (depth + 1)) : m.AllowsFrom (count + 1) depth := by
  intro i lt
  have next := h (i + 1) (Nat.succ_lt_succ lt)
  rwa [Nat.add_right_comm, Nat.add_assoc]

theorem of_le {limit : Nat} (h : m.depthLimit = some limit) (le : count + depth ≤ limit) :
    m.AllowsFrom count depth := by
  intro i lt
  simp only [Mode.allows, h, Option.all_some, decide_eq_true_eq]
  omega

theorem unlimited (m : Mode) : m.unlimited.AllowsFrom count depth :=
  fun _ _ => rfl

end Mode.AllowsFrom

/-! ### Factors and what stands behind them -/

theorem Goal.openGroups_of_afterFactor? {g : Goal} {after : List Goal}
    (h : g.afterFactor? = some after) : Goal.openGroups after = 0 := by
  cases g <;> simp only [afterFactor?, Option.some.injEq, reduceCtorEq] at h <;> subst h <;> rfl

/-- The tokens may stand behind a term: the first one starts no factor. -/
def FollowsTerm (us : List Token) : Prop :=
  ∀ t ∈ us.head?, startsFactor t = false

/-- The tokens may stand behind an expression: the first one neither starts a factor nor is a
bar. -/
def FollowsExpression (us : List Token) : Prop :=
  FollowsTerm us ∧ ∀ t ∈ us.head?, t.isSymbol Mark.bar.text = false

/-- The symbols that end an expression may stand behind one. -/
theorem followsExpression_of_isSymbol {t : Token} {s : String} {us : List Token}
    (h : t.isSymbol s) (ends : s ∈ [";", "]", ")", "\x7d"]) : FollowsExpression (t :: us) := by
  have key : ∀ s ∈ [";", "]", ")", "\x7d"],
      (s == actionOpener || (Bracket.ofOpener? s).isSome) = false ∧
        (s == Mark.bar.text) = false := by decide
  constructor
  · intro u mem
    obtain rfl := Option.some.inj mem
    exact (startsFactor_of_isSymbol h).trans (key s ends).1
  · intro u mem
    obtain rfl := Option.some.inj mem
    exact (Token.isSymbol_eq_of_isSymbol h).trans (key s ends).2

/-! ### Expressions -/

section Expressions

variable {m : Mode} {goals : List Goal} {d : Draft} {us : List Token} {t : Token}

theorem read_factors_of_follows (h : FollowsTerm us) :
    read m (.factors :: goals) d us = read m goals d us := by
  cases us with
  | nil => exact read_conclude rfl
  | cons t us => exact read_pass (.factors (h t rfl)) us

theorem read_alternatives_of_follows (h : FollowsExpression us) :
    read m (.alternatives :: goals) d us = read m goals d us := by
  cases us with
  | nil => exact read_conclude rfl
  | cons t us => exact read_pass (.alternatives (h.2 t rfl)) us

theorem read_separator {s : String} (h : t.isSymbol s) :
    read m (.separator s :: goals) d (t :: us) = read m goals d us :=
  read_take (.separator h) us

theorem read_closing {b : Bracket} :
    read m (.closing b :: goals) d us = read m goals (d.extend [.mark (.closing b)]) us := by
  cases us with
  | nil => exact read_conclude rfl
  | cons t us => exact read_pass .closing us

end Expressions

mutual

/-- A factor is read by every goal that begins with one. -/
theorem FactorSentence.read_eq {m : Mode} {g : Goal} {goals after : List Goal} {d : Draft}
    {ts us : List Token} {f : Factor} (h : FactorSentence ts f)
    (begins : g.afterFactor? = some after)
    (allowed : m.AllowsFrom (Goal.openGroups goals) f.depth) :
    read m (g :: goals) d (ts ++ us) = read m (after ++ goals) (d.extend f.roles) us := by
  cases h with
  | nonterminal kind => exact read_take (.nonterminal begins kind) us
  | terminal kind => exact read_take (.terminal begins kind) us
  | @action opener code closer opens kind closes =>
    calc read m (g :: goals) d (opener :: code :: closer :: us)
        = read m (.code :: (after ++ goals)) d (code :: closer :: us) :=
          read_take (.action begins opens) _
      _ = read m (.separator actionCloser :: (after ++ goals)) (d.extend [.action code.text])
            (closer :: us) := read_take (.code kind) _
      _ = read m (after ++ goals) (d.extend [.action code.text]) us := read_separator closes
  | @enclosed b opener closer inner e opens body closes =>
    have ends : FollowsExpression (closer :: us) :=
      followsExpression_of_isSymbol closes (by cases b <;> decide)
    -- The goal that attaches the closing mark is what makes the group count as open.
    have count : Goal.openGroups (.separator b.closer :: .closing b :: (after ++ goals)) =
        Goal.openGroups goals + 1 := by
      simp [Goal.openGroups_cons, Goal.isClosing, Goal.openGroups_of_afterFactor? begins]
    have inside : read m (.expression :: .separator b.closer :: .closing b :: (after ++ goals))
        (d.extend [.mark (.opening b)]) (inner ++ closer :: us) = _ :=
      ExpressionSentence.read_eq body rfl rfl (count ▸ allowed.inner) ends
    calc read m (g :: goals) d (opener :: (inner ++ [closer]) ++ us)
        = read m (.expression :: .separator b.closer :: .closing b :: (after ++ goals))
            (d.extend [.mark (.opening b)]) (inner ++ closer :: us) := by
          rw [List.cons_append, List.append_assoc]
          exact read_take (.group begins opens allowed.allows) _
      _ = read m (.separator b.closer :: .closing b :: (after ++ goals))
            ((d.extend [.mark (.opening b)]).extend e.roles) (closer :: us) := inside
      _ = read m (.closing b :: (after ++ goals))
            ((d.extend [.mark (.opening b)]).extend e.roles) us := read_separator closes
      _ = read m (after ++ goals) (d.extend (Factor.enclosed b e).roles) us := by
          rw [read_closing, Draft.extend_extend, Draft.extend_extend, Factor.roles]
          rfl

theorem TermSentence.read_eq {m : Mode} {g : Goal} {goals after : List Goal} {d : Draft}
    {ts us : List Token} {t : Term} (h : TermSentence ts t)
    (begins : g.afterFactor? = some (.factors :: after))
    (allowed : m.AllowsFrom (Goal.openGroups goals) t.depth) (ends : FollowsTerm us) :
    read m (g :: goals) d (ts ++ us) = read m (after ++ goals) (d.extend t.roles) us := by
  cases h with
  | one factor =>
    rw [FactorSentence.read_eq factor begins allowed, List.cons_append,
      read_factors_of_follows ends, Term.roles]
  | @more ts ts' f t factor term =>
    have first : read m (g :: goals) d (ts ++ (ts' ++ us)) = _ :=
      FactorSentence.read_eq factor begins (allowed.mono (Nat.le_max_left f.depth t.depth))
    have count : Goal.openGroups (after ++ goals) = Goal.openGroups goals := by
      have none := Goal.openGroups_of_afterFactor? begins
      simpa [Goal.openGroups_cons, Goal.isClosing] using none
    have others : read m (.factors :: (after ++ goals)) (d.extend f.roles) (ts' ++ us) = _ :=
      TermSentence.read_eq term rfl (count ▸ allowed.mono (Nat.le_max_right f.depth t.depth)) ends
    rw [List.append_assoc, first, List.cons_append, others, List.nil_append,
      Draft.extend_extend, Term.roles]

/-- An expression is read by every goal that begins with a factor, if what it sets behind the
factor, with the goals behind it, goes on with factors and alternatives. -/
theorem ExpressionSentence.read_eq {m : Mode} {g : Goal} {goals after rest : List Goal}
    {d : Draft} {ts us : List Token} {e : Expression} (h : ExpressionSentence ts e)
    (begins : g.afterFactor? = some (.factors :: after))
    (eq : after ++ rest = .alternatives :: goals)
    (allowed : m.AllowsFrom (Goal.openGroups goals) e.depth) (ends : FollowsExpression us) :
    read m (g :: rest) d (ts ++ us) = read m goals (d.extend e.roles) us := by
  -- What is set behind a factor opens no group, so the depth is that of the goals behind it.
  have count : Goal.openGroups rest = Goal.openGroups goals := by
    have none := Goal.openGroups_of_afterFactor? begins
    have same := congrArg Goal.openGroups eq
    simp only [Goal.openGroups_append, Goal.openGroups_cons, Goal.isClosing, Bool.false_eq_true,
      if_false] at none same
    omega
  cases h with
  | one term =>
    rw [TermSentence.read_eq term begins (count ▸ allowed) ends.1, eq,
      read_alternatives_of_follows ends, Expression.roles]
  | @more bar ts ts' t e term isBar expression =>
    have follows : FollowsTerm (bar :: (ts' ++ us)) := by
      intro u mem
      obtain rfl := Option.some.inj mem
      exact (startsFactor_of_isSymbol isBar).trans (by decide)
    have first : read m (g :: rest) d (ts ++ bar :: (ts' ++ us)) = _ :=
      TermSentence.read_eq term begins (count ▸ allowed.mono (Nat.le_max_left t.depth e.depth))
        follows
    have others : read m (.term :: .alternatives :: goals)
        ((d.extend t.roles).extend [.mark .bar]) (ts' ++ us) = _ :=
      ExpressionSentence.read_eq expression rfl rfl
        (allowed.mono (Nat.le_max_right t.depth e.depth)) ends
    have between : read m (.alternatives :: goals) (d.extend t.roles) (bar :: (ts' ++ us)) = _ :=
      read_take (.bar isBar) _
    rw [List.append_assoc, List.cons_append, first, eq, between, Draft.attach_eq_extend]
    refine others.trans ?_
    rw [Draft.extend_extend, Draft.extend_extend, Expression.roles]
    simp

end

/-! ### Sections -/

/-- Puts nodes at the end of the section. -/
def Draft.addAll (d : Draft) (nodes : List Tree) : Draft :=
  { d with pending := d.pending ++ nodes }

/-- Puts a whole production at the end of the section. -/
def Draft.addRule (d : Draft) (name : String) (e : Expression) : Draft :=
  ((d.beginProduction name).extend e.roles).endProduction (d.counter + 1) name

@[simp]
theorem Draft.children_addRule (d : Draft) (name : String) (e : Expression) :
    (d.addRule name e).children = d.children := rfl

@[simp]
theorem Draft.counter_addRule (d : Draft) (name : String) (e : Expression) :
    (d.addRule name e).counter = d.counter + 1 := rfl

@[simp]
theorem Draft.pending_addRule (d : Draft) (name : String) (e : Expression) :
    (d.addRule name e).pending =
      d.pending ++ [productionNode (d.counter + 1) name e.roles] := rfl

/-- Puts what a section says into the tree. -/
def Draft.addSection (d : Draft) : Section → Draft
  | .grammar name => (d.addAll [.leaf (.grammar name)]).commit
  | .tokens entries =>
    (d.addAll (entries.map fun entry => .leaf (.token entry.1 entry.2))).commit
  | .productions rules => (rules.foldl (fun d rule => d.addRule rule.1 rule.2) d).commit

/-- Puts what a description says into the tree. -/
def Draft.addDescription (d : Draft) (D : Description) : Draft :=
  D.foldl Draft.addSection d

/-- The expressions of a section. -/
def Section.expressions : Section → List Expression
  | .productions rules => rules.map Prod.snd
  | _ => []

/-- The expressions of a description. -/
def Description.expressions (D : Description) : List Expression :=
  D.flatMap Section.expressions

section Sections

variable {m : Mode} {goals : List Goal} {d : Draft} {us : List Token} {t : Token}

theorem read_commit : read m (.commit :: goals) d us = read m goals d.commit us := by
  cases us with
  | nil => exact read_conclude rfl
  | cons t us => exact read_pass .commit us

theorem read_endProduction {number : Nat} {name : String} :
    read m (.endProduction number name :: goals) d us =
      read m goals (d.endProduction number name) us := by
  cases us with
  | nil => exact read_conclude rfl
  | cons t us => exact read_pass .endProduction us

theorem EntriesSentence.read_eq {ts : List Token} {entries : List (String × String)}
    (h : EntriesSentence ts entries) (closes : t.isSymbol sectionCloser) :
    read m (.entries :: goals) d (ts ++ t :: us) =
      read m goals (d.addAll (entries.map fun entry => .leaf (.token entry.1 entry.2)))
        (t :: us) := by
  induction h generalizing d with
  | nil =>
    rw [List.nil_append, read_pass (.entries closes)]
    simp [Draft.addAll]
  | @cons name colon pattern ts entries isName isColon isPattern _ ih =>
    calc read m (.entries :: goals) d (name :: colon :: pattern :: ts ++ t :: us)
        = read m (.separator ":" :: .pattern name.text :: .entries :: goals) d
            (colon :: pattern :: (ts ++ t :: us)) := read_take (.entry isName) _
      _ = read m (.pattern name.text :: .entries :: goals) d (pattern :: (ts ++ t :: us)) :=
          read_separator isColon
      _ = read m (.entries :: goals) (d.add (.leaf (.token name.text pattern.text)))
            (ts ++ t :: us) := read_take (.pattern isPattern) _
      _ = _ := by
          rw [ih]
          simp [Draft.addAll, Draft.add]

/-- The productions of a section are read up to the closing brace. -/
theorem ProductionsSentence.read_eq {ts : List Token} {rules : List (String × Expression)}
    (h : ProductionsSentence ts rules) (closes : t.isSymbol sectionCloser)
    (allowed : ∀ e ∈ rules.map Prod.snd, m.AllowsFrom (Goal.openGroups goals) e.depth) :
    read m (.productions :: goals) d (ts ++ t :: us) =
      read m goals (rules.foldl (fun d rule => d.addRule rule.1 rule.2) d) (t :: us) := by
  induction h generalizing d with
  | nil => exact read_pass (.productions closes) us
  | @cons name colon semicolon body ts e rules isName isColon expression isSemicolon _ ih =>
    rw [List.map_cons, List.forall_mem_cons] at allowed
    have ends : FollowsExpression (semicolon :: (ts ++ t :: us)) :=
      followsExpression_of_isSymbol isSemicolon (by decide)
    have first : Takes m (Goal.openGroups goals) d name .productions
        [.separator ":", .expression, .separator ";", .endProduction (d.counter + 1) name.text,
          .productions] (d.beginProduction name.text) := .production rfl isName
    calc read m (.productions :: goals) d (name :: colon :: (body ++ semicolon :: ts) ++ t :: us)
        = read m (.separator ":" :: .expression :: .separator ";"
            :: .endProduction (d.counter + 1) name.text :: .productions :: goals)
            (d.beginProduction name.text) (colon :: (body ++ semicolon :: ts) ++ t :: us) :=
          read_take first _
      _ = read m (.expression :: .separator ";"
            :: .endProduction (d.counter + 1) name.text :: .productions :: goals)
            (d.beginProduction name.text) (body ++ semicolon :: (ts ++ t :: us)) := by
          rw [List.cons_append, read_separator isColon, List.append_assoc, List.cons_append]
      _ = read m (.separator ";" :: .endProduction (d.counter + 1) name.text
            :: .productions :: goals)
            ((d.beginProduction name.text).extend e.roles) (semicolon :: (ts ++ t :: us)) :=
          expression.read_eq rfl rfl allowed.1 ends
      _ = read m (.productions :: goals) (d.addRule name.text e) (ts ++ t :: us) := by
          rw [read_separator isSemicolon, read_endProduction]
          rfl
      _ = _ := ih allowed.2

theorem SectionSentence.read_eq {ts : List Token} {s : Section} (h : SectionSentence ts s)
    (allowed : ∀ e ∈ s.expressions, m.AllowsFrom 0 e.depth) :
    read m [.sections] d (ts ++ us) = read m [.sections] (d.addSection s) us := by
  cases h with
  | @grammar keyword name semicolon isKeyword isName isSemicolon =>
    calc read m [.sections] d (keyword :: name :: semicolon :: us)
        = read m [.grammarName, .commit, .sections] d (name :: semicolon :: us) :=
          read_take (.grammarSection isKeyword) _
      _ = read m [.separator ";", .commit, .sections] (d.addAll [.leaf (.grammar name.text)])
            (semicolon :: us) := read_take (.grammarName isName) _
      _ = read m [.commit, .sections] _ us := read_separator isSemicolon
      _ = read m [.sections] (d.addSection (.grammar name.text)) us := read_commit
  | @tokens keyword opener closer ts entries isKeyword opens body closes =>
    calc read m [.sections] d (keyword :: opener :: (ts ++ [closer]) ++ us)
        = read m [.separator sectionOpener, .entries, .separator sectionCloser, .commit, .sections]
            d (opener :: (ts ++ closer :: us)) := by
          rw [List.cons_append, List.cons_append, List.append_assoc]
          exact read_take (.tokenSection isKeyword) _
      _ = read m [.entries, .separator sectionCloser, .commit, .sections] d (ts ++ closer :: us) :=
          read_separator opens
      _ = read m [.separator sectionCloser, .commit, .sections] _ (closer :: us) :=
          body.read_eq closes
      _ = read m [.commit, .sections] _ us := read_separator closes
      _ = read m [.sections] (d.addSection (.tokens entries)) us := read_commit
  | @productions keyword opener closer ts rules isKeyword opens body closes =>
    calc read m [.sections] d (keyword :: opener :: (ts ++ [closer]) ++ us)
        = read m [.separator sectionOpener, .productions, .separator sectionCloser, .commit,
            .sections] d (opener :: (ts ++ closer :: us)) := by
          rw [List.cons_append, List.cons_append, List.append_assoc]
          exact read_take (.productionSection isKeyword) _
      _ = read m [.productions, .separator sectionCloser, .commit, .sections] d
            (ts ++ closer :: us) := read_separator opens
      _ = read m [.separator sectionCloser, .commit, .sections] _ (closer :: us) :=
          body.read_eq closes allowed
      _ = read m [.commit, .sections] _ us := read_separator closes
      _ = read m [.sections] (d.addSection (.productions rules)) us := read_commit

/-- A description is read to its end, and what it says is put into the tree. -/
theorem Sentence.read_eq {ts : List Token} {D : Description} (h : Sentence ts D)
    (allowed : ∀ e ∈ D.expressions, m.AllowsFrom 0 e.depth) :
    read m [.sections] d ts = ⟨none, d.addDescription D, []⟩ := by
  induction h generalizing d with
  | nil => rfl
  | @cons ts us s D first _ ih =>
    rw [Description.expressions, List.flatMap_cons, List.forall_mem_append] at allowed
    rw [first.read_eq allowed.1, ih allowed.2, Draft.addDescription, Draft.addDescription,
      List.foldl_cons]

end Sections

/-! ### The tree of a description -/

theorem Draft.foldl_addRule (d : Draft) (rules : List (String × Expression)) :
    let d' := rules.foldl (fun d rule => d.addRule rule.1 rule.2) d
    d'.children = d.children ∧ d'.pending = d.pending ++ productionNodes d.counter rules ∧
      d'.counter = d.counter + rules.length := by
  induction rules generalizing d with
  | nil => simp [productionNodes]
  | cons rule rules ih =>
    obtain ⟨children, pending, counter⟩ := ih (d.addRule rule.1 rule.2)
    refine ⟨children, ?_, ?_⟩
    · rw [List.foldl_cons, pending, Draft.pending_addRule, Draft.counter_addRule,
        List.append_assoc]
      rfl
    · rw [List.foldl_cons, counter, Draft.counter_addRule, List.length_cons]
      omega

theorem Draft.addSection_eq (d : Draft) (s : Section) (ready : d.pending = []) :
    (d.addSection s).children = d.children ++ s.nodes d.counter ∧
      (d.addSection s).pending = [] ∧
      (d.addSection s).counter = d.counter + s.productionCount := by
  cases s with
  | grammar name => simp [addSection, addAll, commit, Section.nodes, Section.productionCount, ready]
  | tokens entries =>
    simp [addSection, addAll, commit, Section.nodes, Section.productionCount, ready]
  | productions rules =>
    obtain ⟨children, pending, counter⟩ := d.foldl_addRule rules
    simp [addSection, commit, Section.nodes, Section.productionCount, children, pending, counter,
      ready]

/-- A description adds its nodes to the tree, and takes as many numbers as it has productions. -/
theorem Draft.addDescription_eq (d : Draft) (D : Description) (ready : d.pending = []) :
    (d.addDescription D).children = d.children ++ D.nodes d.counter ∧
      (d.addDescription D).counter = d.counter + D.productionCount := by
  induction D generalizing d with
  | nil => simp [addDescription, Description.nodes, Description.productionCount]
  | cons s D ih =>
    obtain ⟨children, pending, counter⟩ := d.addSection_eq s ready
    obtain ⟨children', counter'⟩ := ih (d.addSection s) pending
    rw [addDescription, List.foldl_cons, ← addDescription]
    refine ⟨?_, ?_⟩
    · rw [children', children, counter, Description.nodes, List.append_assoc]
    · rw [counter', counter, Description.productionCount, Nat.add_assoc]

end GrammarNotation
