import GrammarNotation.Proofs.Reading.Growth
import GrammarNotation.Proofs.Reading.Sections

/-!
# Stages of a reading

At any moment a reading is outside of productions and entries, or it has begun a production, or it
has taken the name of a token and waits for its pattern. The goals show which, and outside of
productions the body is empty.

## Main definitions

- `Goal.fillsBody` — the goals that attach nodes to a body
- `Goal.awaited?` — the name of the token that waits for its pattern
- `Goal.Staged` — the goals fit the body
- `Configuration.Commits` — the nodes of a section wait until it is complete

## Main statements

- `ReadingSteps.staged` — they always do
- `body_read` — a reading without a fault leaves no production unfinished
- `pending_read_sections` — and no nodes out of the tree
-/

namespace GrammarNotation

/-- The symbols that stand in the tree for themselves: the bar and the opening brackets, but for
the one that also opens sections. -/
def treeSymbols : List String := ["|", "[", "("]

namespace Goal

/-- The goals that attach nodes to the body of a production. -/
def fillsBody : Goal → Bool
  | .expression | .alternatives | .term | .factors | .factor | .code | .closing _ => true
  | _ => false

/-- The name of the token that waits for its pattern. -/
def awaited? : List Goal → Option String
  | .separator _ :: goals => awaited? goals
  | .pattern name :: _ => some name
  | _ => none

/-- **The goals fit the body**: nothing is attached but in front of the end of a production, and in
front of all other goals the body is empty. -/
def Staged : List Goal → List Tree → Prop
  | [], body => body = []
  | .separator s :: goals, body => s ∉ treeSymbols ∧ Staged goals body
  | .endProduction _ _ :: goals, _ => awaited? goals = none ∧ Staged goals []
  | g :: goals, body =>
    awaited? goals = none ∧
      if g.fillsBody then ∀ body', Staged goals body' else body = [] ∧ Staged goals []

section Staged

variable {g : Goal} {goals after : List Goal} {body : List Tree}

theorem staged_of_fillsBody (fills : g.fillsBody) :
    Staged (g :: goals) body ↔ awaited? goals = none ∧ ∀ body', Staged goals body' := by
  cases g <;> simp [fillsBody] at fills <;> simp [Staged, fillsBody]

theorem fillsBody_of_afterFactor? (begins : g.afterFactor? = some after) : g.fillsBody := by
  cases g <;> simp [afterFactor?, fillsBody] at begins ⊢

/-- What is left of a goal behind a factor fills the body, too. -/
theorem Staged.after_factor (h : Staged (g :: goals) body)
    (begins : g.afterFactor? = some after) :
    awaited? (after ++ goals) = none ∧ ∀ body', Staged (after ++ goals) body' := by
  obtain ⟨none, others⟩ := (staged_of_fillsBody (fillsBody_of_afterFactor? begins)).1 h
  cases g <;> simp only [afterFactor?, Option.some.injEq, reduceCtorEq] at begins <;>
    subst begins <;> simpa [Staged, awaited?, fillsBody, none] using others

theorem Staged.after_production (h : Staged (g :: goals) body)
    (begins : g.afterProduction? = some after) :
    body = [] ∧ awaited? (after ++ goals) = none ∧ Staged (after ++ goals) [] := by
  cases g <;> simp only [afterProduction?, Option.some.injEq, reduceCtorEq] at begins <;>
    subst begins <;> simp_all [Staged, awaited?, fillsBody]

end Staged

end Goal

/-! ### Steps -/

section Steps

open Goal

variable {m : Mode} {depth : Nat} {g : Goal} {goals new : List Goal} {d d' : Draft} {t : Token}

theorem Takes.staged (takes : Takes m depth d t g new d') (h : Staged (g :: goals) d.body) :
    Staged (new ++ goals) d'.body := by
  cases takes with
  | separator => exact h.2
  | production begins =>
    obtain ⟨-, none, others⟩ := h.after_production begins
    simp [Staged, fillsBody, awaited?, treeSymbols, none, others]
  | nonterminal begins | terminal begins => exact (h.after_factor begins).2 _
  | group begins =>
    obtain ⟨none, others⟩ := h.after_factor begins
    rename_i b _ _
    have silent : b.closer ∉ treeSymbols := by cases b <;> decide
    simp [Staged, fillsBody, awaited?, none, others, silent]
  | action begins =>
    obtain ⟨none, others⟩ := h.after_factor begins
    simp [Staged, fillsBody, none, others]
  | _ =>
    simp_all [Staged, fillsBody, awaited?, treeSymbols, Rule.goals, sectionOpener, sectionCloser,
      actionCloser, Draft.add, Draft.note]

theorem Passes.staged (passes : Passes m d t g d') (h : Staged (g :: goals) d.body) :
    Staged goals d'.body := by
  cases passes with
  | separator => exact h.2
  | factors | alternatives | closing => exact ((staged_of_fillsBody rfl).1 h).2 _
  | _ => simp_all [Staged, fillsBody, Draft.note, Draft.endProduction, Draft.commit, Draft.add]

theorem Concludes.staged (concludes : Concludes m d g d') (h : Staged (g :: goals) d.body) :
    Staged goals d'.body := by
  cases concludes with
  | separator => exact h.2
  | factors | alternatives | closing => exact ((staged_of_fillsBody rfl).1 h).2 _
  | _ => simp_all [Staged, fillsBody, Draft.note, Draft.endProduction, Draft.commit, Draft.add]

theorem ReadingStep.staged {c c' : Configuration} (step : ReadingStep m c c')
    (h : Staged c.goals c.draft.body) : Staged c'.goals c'.draft.body := by
  cases step with
  | take takes => exact takes.staged h
  | pass passes => exact passes.staged h
  | conclude done => exact (concludes_of_conclude_eq done).staged h

theorem ReadingSteps.staged {c c' : Configuration} (steps : ReadingSteps m c c')
    (h : Staged c.goals c.draft.body) : Staged c'.goals c'.draft.body :=
  steps.keeps (P := fun c => Staged c.goals c.draft.body) ReadingStep.staged h

/-- A reading without a fault leaves no production unfinished. -/
theorem body_read {ts : List Token} (h : Staged goals d.body)
    (ok : (read m goals d ts).fault = none) : (read m goals d ts).draft.body = [] :=
  (steps_of_read ok).staged h

end Steps

/-! ### Goals of a section -/

/-- The goals that are part of a section, as opposed to those that put sections in a row. -/
def Goal.isWithinSection : Goal → Bool
  | .sections | .commit => false
  | _ => true

section WithinSection

variable {m : Mode} {depth : Nat} {g : Goal} {after new : List Goal} {d d' : Draft} {t : Token}
  {r : Rule}

theorem Goal.isWithinSection_of_afterFactor? (begins : g.afterFactor? = some after) :
    ∀ g' ∈ after, g'.isWithinSection ∧ g'.readsEntries = false := by
  cases g <;> simp only [afterFactor?, Option.some.injEq, reduceCtorEq] at begins <;>
    subst begins <;> simp [isWithinSection, readsEntries]

theorem Goal.isWithinSection_of_afterProduction? (begins : g.afterProduction? = some after) :
    ∀ g' ∈ after, g'.isWithinSection ∧ g'.readsEntries = false := by
  cases g <;> simp only [afterProduction?, Option.some.injEq, reduceCtorEq] at begins <;>
    subst begins <;> simp [isWithinSection, readsEntries]

theorem Token.Opens.isWithinSection (h : t.Opens r) : ∀ g ∈ r.goals, g.isWithinSection := by
  obtain ⟨keyword, eq, -⟩ := h
  cases r <;> simp only [Rule.keyword?, reduceCtorEq] at eq <;>
    simp [Rule.goals, Goal.isWithinSection]

theorem Takes.isWithinSection (takes : Takes m depth d t g new d') (within : g.isWithinSection) :
    ∀ g' ∈ new, g'.isWithinSection := by
  cases takes with
  | comment | grammarSection | tokenSection | productionSection => cases within
  | production begins =>
    have inner := Goal.isWithinSection_of_afterProduction? begins
    simpa [Goal.isWithinSection] using fun g' mem => (inner g' mem).1
  | nonterminal begins | terminal begins | group begins | action begins =>
    have inner := Goal.isWithinSection_of_afterFactor? begins
    simpa [Goal.isWithinSection] using fun g' mem => (inner g' mem).1
  | _ => simp [Goal.isWithinSection]

/-- What reads no entries sets no goal that does. -/
theorem Takes.readsEntries_eq (takes : Takes m depth d t g new d') (within : g.isWithinSection)
    (none : g.readsEntries = false) : ∀ g' ∈ new, g'.readsEntries = false := by
  cases takes with
  | comment | grammarSection | tokenSection | productionSection => cases within
  | entry | skipEntry => cases none
  | production begins =>
    have inner := Goal.isWithinSection_of_afterProduction? begins
    simpa [Goal.readsEntries] using fun g' mem => (inner g' mem).2
  | nonterminal begins | terminal begins | group begins | action begins =>
    have inner := Goal.isWithinSection_of_afterFactor? begins
    simpa [Goal.readsEntries] using fun g' mem => (inner g' mem).2
  | _ => simp [Goal.readsEntries]

end WithinSection

/-! ### Nodes that wait -/

/-- The nodes of a section wait until it is complete, and between sections there are none. -/
def Configuration.Commits (c : Configuration) : Prop :=
  (∃ front, c.goals = front ++ [.commit, .sections]) ∨
    c.draft.pending = [] ∧ (c.goals = [.sections] ∨ c.goals = [])

section Commits

variable {m : Mode} {depth : Nat} {new : List Goal} {d d' : Draft} {t : Token}

theorem ReadingStep.commits {c c' : Configuration} (step : ReadingStep m c c') (h : c.Commits) :
    c'.Commits := by
  rcases h with ⟨front, within⟩ | ⟨ready, between⟩
  · cases step with
    | @take g goals new d d' t ts takes =>
      cases front with
      | nil =>
        obtain ⟨rfl, -⟩ := List.cons.inj within
        exact absurd takes not_takes_commit
      | cons g' front =>
        obtain ⟨rfl, rfl⟩ := List.cons.inj within
        exact .inl ⟨new ++ front, (List.append_assoc new front _).symm⟩
    | pass passes =>
      cases front with
      | nil =>
        obtain ⟨rfl, rfl⟩ := List.cons.inj within
        cases passes
        exact .inr ⟨rfl, .inl rfl⟩
      | cons g' front =>
        obtain ⟨rfl, rfl⟩ := List.cons.inj within
        exact .inl ⟨front, rfl⟩
    | conclude done =>
      cases front with
      | nil =>
        obtain ⟨rfl, rfl⟩ := List.cons.inj within
        cases done
        exact .inr ⟨rfl, .inl rfl⟩
      | cons g' front =>
        obtain ⟨rfl, rfl⟩ := List.cons.inj within
        exact .inl ⟨front, rfl⟩
  · cases step with
    | take takes =>
      obtain ⟨rfl, rfl⟩ := List.cons.inj (between.resolve_right (List.cons_ne_nil _ _))
      obtain ⟨rfl, rfl | ⟨r, -, rfl⟩⟩ := takes.sections_cases
      · exact .inr ⟨ready, .inl rfl⟩
      · exact .inl ⟨r.goals, List.append_nil _⟩
    | pass passes =>
      obtain ⟨rfl, rfl⟩ := List.cons.inj (between.resolve_right (List.cons_ne_nil _ _))
      cases passes
    | conclude done =>
      obtain ⟨rfl, rfl⟩ := List.cons.inj (between.resolve_right (List.cons_ne_nil _ _))
      cases done
      exact .inr ⟨ready, .inr rfl⟩

theorem ReadingSteps.commits {c c' : Configuration} (steps : ReadingSteps m c c')
    (h : c.Commits) : c'.Commits :=
  steps.keeps ReadingStep.commits h

/-- A description that is read without a fault leaves no nodes out of the tree. -/
theorem pending_read_sections {ts : List Token} (ready : d.pending = [])
    (ok : (read m [.sections] d ts).fault = none) :
    (read m [.sections] d ts).draft.pending = [] := by
  have last := (steps_of_read ok).commits (.inr ⟨ready, .inl rfl⟩)
  have within : ¬ ∃ front, [] = front ++ [Goal.commit, .sections] := by simp
  exact (last.resolve_left within).1

end Commits

end GrammarNotation
