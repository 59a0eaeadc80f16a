import GrammarNotation.Proofs.Reading.Sentences

/-!
# What goals stand for

In the eyes of a strict reader each goal stands for the phrases of one rule, and a list of goals
for such phrases in a row. A step of the reader only ever goes from goals to goals that stand for
what is left: whatever meets the goals after the step, with the token taken in front of it, meets
the goals before the step.

## Main definitions

- `Goal.Spelled` — the tokens are a phrase that meets the goal
- `Goal.AllSpelled` — the tokens are phrases that meet the goals one after the other

## Main statements

- `ReadingSteps.allSpelled` — the tokens taken and what meets the goals that are left meet the
  first goals
- `Goal.exists_allSpelled` — all goals can be met
-/

namespace GrammarNotation

/-- The tokens are a phrase that meets the goal. -/
def Goal.Spelled : Goal → List Token → Prop
  | .sections, ts => ∃ D, Sentence ts D
  | .grammarName, ts =>
    ∃ name semicolon, ts = [name, semicolon] ∧ name.kind = .identifier ∧ semicolon.isSymbol ";"
  | .separator s, ts => ∃ t, ts = [t] ∧ t.isSymbol s
  | .entries, ts => ∃ entries, EntriesSentence ts entries
  | .pattern _, ts => ∃ t, ts = [t] ∧ t.kind = .literal
  | .productions, ts => ∃ rules, ProductionsSentence ts rules
  | .production, ts =>
    ∃ name colon body semicolon e, ts = name :: colon :: (body ++ [semicolon]) ∧
      name.kind = .identifier ∧ colon.isSymbol ":" ∧ ExpressionSentence body e ∧
      semicolon.isSymbol ";"
  | .expression, ts => ∃ e, ExpressionSentence ts e
  | .alternatives, ts =>
    ts = [] ∨ ∃ bar us e, ts = bar :: us ∧ bar.isSymbol "|" ∧ ExpressionSentence us e
  | .term, ts => ∃ t, TermSentence ts t
  | .factors, ts => ts = [] ∨ ∃ t, TermSentence ts t
  | .factor, ts => ∃ f, FactorSentence ts f
  | .code, ts =>
    ∃ code closer, ts = [code, closer] ∧ code.kind = .literal ∧ closer.isSymbol actionCloser
  | .closing _, ts | .endProduction _ _, ts | .commit, ts => ts = []

/-- The tokens are phrases that meet the goals one after the other. -/
def Goal.AllSpelled : List Goal → List Token → Prop
  | [], ts => ts = []
  | g :: goals, ts => ∃ us vs, ts = us ++ vs ∧ g.Spelled us ∧ AllSpelled goals vs

namespace Goal

@[simp]
theorem allSpelled_nil {ts : List Token} : AllSpelled [] ts ↔ ts = [] := Iff.rfl

theorem allSpelled_cons {g : Goal} {goals : List Goal} {ts : List Token} :
    AllSpelled (g :: goals) ts ↔ ∃ us vs, ts = us ++ vs ∧ g.Spelled us ∧ AllSpelled goals vs :=
  Iff.rfl

@[simp]
theorem allSpelled_singleton {g : Goal} {ts : List Token} : AllSpelled [g] ts ↔ g.Spelled ts := by
  simp [allSpelled_cons]

theorem allSpelled_append {goals more : List Goal} {ts : List Token} :
    AllSpelled (goals ++ more) ts ↔
      ∃ us vs, ts = us ++ vs ∧ AllSpelled goals us ∧ AllSpelled more vs := by
  induction goals generalizing ts with
  | nil =>
    constructor
    · intro h
      exact ⟨[], ts, rfl, rfl, h⟩
    · rintro ⟨_, vs, rfl, rfl, h⟩
      exact h
  | cons g goals ih =>
    simp only [List.cons_append, allSpelled_cons, ih]
    constructor
    · rintro ⟨us, _, rfl, first, vs, ws, rfl, middle, last⟩
      exact ⟨us ++ vs, ws, (List.append_assoc us vs ws).symm, ⟨us, vs, rfl, first, middle⟩, last⟩
    · rintro ⟨_, ws, rfl, ⟨us, vs, rfl, first, middle⟩, last⟩
      exact ⟨us, vs ++ ws, List.append_assoc us vs ws, first, vs, ws, rfl, middle, last⟩

/-! ### Every goal can be met -/

/-- Some identifier. -/
def someName : Token := ⟨.identifier, "a", none⟩

/-- Some literal. -/
def someLiteral : Token := ⟨.literal, "a", none⟩

theorem exists_spelled (g : Goal) : ∃ ts, g.Spelled ts := by
  have factor : FactorSentence [someName] (.nonterminal someName.text) := .nonterminal rfl
  cases g with
  | sections => exact ⟨[], [], .nil⟩
  | grammarName => exact ⟨_, someName, .ofSymbol ";", rfl, rfl, by simp⟩
  | separator s => exact ⟨_, .ofSymbol s, rfl, by simp⟩
  | entries => exact ⟨[], [], .nil⟩
  | pattern => exact ⟨_, someLiteral, rfl, rfl⟩
  | productions => exact ⟨[], [], .nil⟩
  | production =>
    exact ⟨_, someName, .ofSymbol ":", _, .ofSymbol ";", _, rfl, rfl, by simp, .one (.one factor),
      by simp⟩
  | expression => exact ⟨_, _, .one (.one factor)⟩
  | alternatives => exact ⟨[], .inl rfl⟩
  | term => exact ⟨_, _, .one factor⟩
  | factors => exact ⟨[], .inl rfl⟩
  | factor => exact ⟨_, _, factor⟩
  | code => exact ⟨_, someLiteral, .ofSymbol actionCloser, rfl, rfl, by simp⟩
  | closing => exact ⟨[], rfl⟩
  | endProduction => exact ⟨[], rfl⟩
  | commit => exact ⟨[], rfl⟩

/-- All goals can be met. -/
theorem exists_allSpelled (goals : List Goal) : ∃ ts, AllSpelled goals ts := by
  induction goals with
  | nil => exact ⟨[], rfl⟩
  | cons g goals ih =>
    obtain ⟨us, first⟩ := g.exists_spelled
    obtain ⟨vs, others⟩ := ih
    exact ⟨us ++ vs, us, vs, rfl, first, others⟩

/-! ### Factors, terms and expressions -/

theorem spelled_term_of_factor {ts us : List Token} {f : Factor} (first : FactorSentence ts f)
    (others : Goal.factors.Spelled us) : Goal.term.Spelled (ts ++ us) := by
  rcases others with rfl | ⟨t, term⟩
  · exact ⟨_, by simpa using .one first⟩
  · exact ⟨_, .more first term⟩

theorem spelled_expression_of_term {ts us : List Token} (first : Goal.term.Spelled ts)
    (others : Goal.alternatives.Spelled us) : Goal.expression.Spelled (ts ++ us) := by
  obtain ⟨t, term⟩ := first
  rcases others with rfl | ⟨bar, us, e, rfl, isBar, expression⟩
  · exact ⟨_, by simpa using .one term⟩
  · exact ⟨_, .more term isBar expression⟩

/-- A factor meets a goal that begins with one, if what is left of the goal is met behind it. -/
theorem spelled_of_factor {g : Goal} {after : List Goal} {ts us : List Token} {f : Factor}
    (begins : g.afterFactor? = some after) (first : FactorSentence ts f)
    (others : AllSpelled after us) : g.Spelled (ts ++ us) := by
  cases g <;> simp only [afterFactor?, Option.some.injEq, reduceCtorEq] at begins <;> subst begins
  · obtain ⟨ts', vs, rfl, factors, others⟩ := others
    rw [← List.append_assoc]
    exact spelled_expression_of_term (spelled_term_of_factor first factors)
      (allSpelled_singleton.1 others)
  · exact spelled_term_of_factor first (allSpelled_singleton.1 others)
  · exact .inr (spelled_term_of_factor first (allSpelled_singleton.1 others))
  · obtain rfl := allSpelled_nil.1 others
    exact ⟨f, by simpa using first⟩

/-- A production meets a goal that begins with one, if what is left of the goal is met behind
it. -/
theorem spelled_of_production {g : Goal} {after : List Goal} {name colon semicolon : Token}
    {body us : List Token} {e : Expression} (begins : g.afterProduction? = some after)
    (isName : name.kind = .identifier) (isColon : colon.isSymbol ":")
    (expression : ExpressionSentence body e) (isSemicolon : semicolon.isSymbol ";")
    (others : AllSpelled after us) :
    g.Spelled (name :: colon :: (body ++ semicolon :: us)) := by
  cases g <;> simp only [afterProduction?, Option.some.injEq, reduceCtorEq] at begins <;>
    subst begins
  · obtain ⟨rules, others⟩ := allSpelled_singleton.1 others
    exact ⟨_, .cons isName isColon expression isSemicolon others⟩
  · obtain rfl := allSpelled_nil.1 others
    exact ⟨name, colon, body, semicolon, e, rfl, isName, isColon, expression, isSemicolon⟩

end Goal

/-! ### Steps -/

section Steps

open Goal

variable {m : Mode} {depth : Nat} {g : Goal} {new : List Goal} {d d' : Draft} {t : Token}
  {us : List Token}

/-- A strict reader that takes a token is left with goals that stand for what may follow it. -/
theorem Takes.spelled (takes : Takes m depth d t g new d') (strict : m.strict)
    (plain : t.kind ≠ .comment) (spelled : AllSpelled new us) : g.Spelled (t :: us) := by
  cases takes with
  | comment kind => exact absurd kind plain
  | grammarSection isKeyword =>
    obtain ⟨_, _, rfl, ⟨name, semicolon, rfl, isName, isSemicolon⟩, _, vs, rfl, rfl, others⟩ :=
      spelled
    obtain ⟨D, others⟩ := allSpelled_singleton.1 others
    exact ⟨_, .cons (.grammar isKeyword isName isSemicolon) others⟩
  | tokenSection isKeyword =>
    obtain ⟨_, _, rfl, ⟨opener, rfl, opens⟩, ts, _, rfl, ⟨entries, body⟩, _, _, rfl,
      ⟨closer, rfl, closes⟩, _, vs, rfl, rfl, others⟩ := spelled
    obtain ⟨D, others⟩ := allSpelled_singleton.1 others
    exact ⟨_, by simpa using Sentence.cons (.tokens isKeyword opens body closes) others⟩
  | productionSection isKeyword =>
    obtain ⟨_, _, rfl, ⟨opener, rfl, opens⟩, ts, _, rfl, ⟨rules, body⟩, _, _, rfl,
      ⟨closer, rfl, closes⟩, _, vs, rfl, rfl, others⟩ := spelled
    obtain ⟨D, others⟩ := allSpelled_singleton.1 others
    exact ⟨_, by simpa using Sentence.cons (.productions isKeyword opens body closes) others⟩
  | grammarName isName =>
    obtain ⟨semicolon, rfl, isSemicolon⟩ := allSpelled_singleton.1 spelled
    exact ⟨t, semicolon, rfl, isName, isSemicolon⟩
  | separator isSymbol =>
    obtain rfl := allSpelled_nil.1 spelled
    exact ⟨t, rfl, isSymbol⟩
  | entry isName =>
    obtain ⟨_, _, rfl, ⟨colon, rfl, isColon⟩, _, vs, rfl, ⟨pattern, rfl, isPattern⟩, others⟩ :=
      spelled
    obtain ⟨entries, others⟩ := allSpelled_singleton.1 others
    exact ⟨_, .cons isName isColon isPattern others⟩
  | skipEntry lenient | skipPattern lenient => simp [strict] at lenient
  | pattern isPattern =>
    obtain rfl := allSpelled_nil.1 spelled
    exact ⟨t, rfl, isPattern⟩
  | production begins isName =>
    obtain ⟨_, _, rfl, ⟨colon, rfl, isColon⟩, body, _, rfl, ⟨e, expression⟩, _, _, rfl,
      ⟨semicolon, rfl, isSemicolon⟩, _, vs, rfl, rfl, others⟩ := spelled
    exact spelled_of_production begins isName isColon expression isSemicolon others
  | nonterminal begins kind => exact spelled_of_factor begins (.nonterminal kind) spelled
  | terminal begins kind => exact spelled_of_factor begins (.terminal kind) spelled
  | group begins opens =>
    obtain ⟨inner, _, rfl, ⟨e, body⟩, _, _, rfl, ⟨closer, rfl, closes⟩, _, vs, rfl, rfl, others⟩ :=
      spelled
    simpa using spelled_of_factor begins (.enclosed opens body closes) others
  | action begins opens =>
    obtain ⟨_, vs, rfl, ⟨code, closer, rfl, isCode, closes⟩, others⟩ := spelled
    exact spelled_of_factor begins (.action opens isCode closes) others
  | bar isBar =>
    -- A term and further alternatives are one expression, so the bar stands in front of one.
    obtain ⟨ts, vs, rfl, term, others⟩ := spelled
    obtain ⟨e, expression⟩ := spelled_expression_of_term term (allSpelled_singleton.1 others)
    exact .inr ⟨t, _, e, rfl, isBar, expression⟩
  | code isCode =>
    obtain ⟨closer, rfl, closes⟩ := allSpelled_singleton.1 spelled
    exact ⟨t, closer, rfl, isCode, closes⟩

theorem Passes.spelled (passes : Passes m d t g d') (strict : m.strict) : g.Spelled [] := by
  cases passes with
  | separator lenient | pattern lenient => simp [strict] at lenient
  | entries => exact ⟨[], .nil⟩
  | productions => exact ⟨[], .nil⟩
  | factors => exact .inl rfl
  | alternatives => exact .inl rfl
  | closing => rfl
  | endProduction => rfl
  | commit => rfl

theorem Concludes.spelled (concludes : Concludes m d g d') (strict : m.strict) : g.Spelled [] := by
  cases concludes with
  | sections => exact ⟨[], .nil⟩
  | entries => exact ⟨[], .nil⟩
  | productions => exact ⟨[], .nil⟩
  | factors => exact .inl rfl
  | alternatives => exact .inl rfl
  | closing => rfl
  | endProduction => rfl
  | commit => rfl
  | separator lenient => simp [strict] at lenient

theorem ReadingStep.allSpelled {c c' : Configuration} (step : ReadingStep m c c')
    (strict : m.strict) (plain : ∀ t ∈ c.rest, t.kind ≠ .comment) :
    ∃ taken, c.rest = taken ++ c'.rest ∧
      ∀ us, AllSpelled c'.goals us → AllSpelled c.goals (taken ++ us) := by
  cases step with
  | @take g goals new d d' t ts takes =>
    refine ⟨[t], rfl, ?_⟩
    intro us spelled
    obtain ⟨vs, ws, rfl, first, others⟩ := allSpelled_append.1 spelled
    exact ⟨t :: vs, ws, rfl, takes.spelled strict (plain t List.mem_cons_self) first, others⟩
  | pass passes => exact ⟨[], rfl, fun us spelled => ⟨[], us, rfl, passes.spelled strict, spelled⟩⟩
  | conclude done =>
    have first := (concludes_of_conclude_eq done).spelled strict
    exact ⟨[], rfl, fun us spelled => ⟨[], us, rfl, first, spelled⟩⟩

/-- The tokens that a strict reader has taken, and whatever meets the goals that are left, meet
the goals with which it began. -/
theorem ReadingSteps.allSpelled {c c' : Configuration} (steps : ReadingSteps m c c')
    (strict : m.strict) (plain : ∀ t ∈ c.rest, t.kind ≠ .comment) :
    ∃ taken, c.rest = taken ++ c'.rest ∧
      ∀ us, AllSpelled c'.goals us → AllSpelled c.goals (taken ++ us) := by
  induction steps with
  | refl => exact ⟨[], rfl, fun us spelled => spelled⟩
  | @tail middle last _ step ih =>
    obtain ⟨taken, eq, spelled⟩ := ih
    have plain' : ∀ t ∈ middle.rest, t.kind ≠ .comment :=
      fun t mem => plain t (eq ▸ List.mem_append_right taken mem)
    obtain ⟨taken', eq', spelled'⟩ := step.allSpelled strict plain'
    refine ⟨taken ++ taken', ?_, ?_⟩
    · rw [eq, eq', List.append_assoc]
    · intro us all
      rw [List.append_assoc]
      exact spelled _ (spelled' us all)

end Steps

end GrammarNotation
