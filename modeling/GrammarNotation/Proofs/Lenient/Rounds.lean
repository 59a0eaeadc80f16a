import GrammarNotation.Proofs.Reading.Recasting
import GrammarNotation.Proofs.Reading.Stages

/-!
# Rounds of the entries

The entries of a token section are read in rounds, one for each entry. A lenient reader warns in a
round that finds no entry, and then, but for the warning, it is where it was before the round.

## Main definitions

- `Goal.Plain`, `Goal.Regular` — the goals of a reading outside of entries, and of one in which no
  entry has been begun
- `Draft.quiet` — the draft without its warnings

## Main statements

- `Takes.regular` — outside of rounds there are no warnings
- `read_round` — entries are read round after round
- `round_cases` — what a round of the entries comes to
-/

namespace GrammarNotation

/-! ### Goals between the rounds -/

namespace Goal

/-- What is left of a token section and of the description behind its entries. -/
def behindEntries : List Goal := [.separator sectionCloser, .commit, .sections]

/-- The goals of a reading outside of the entries of token sections. -/
def Plain (goals : List Goal) : Prop :=
  goals = [] ∨ goals = [.sections] ∨ ∃ front, goals = front ++ [.commit, .sections] ∧
    ∀ g ∈ front, g.isWithinSection ∧ g.readsEntries = false

/-- The goals of a reading while no entry has been begun. -/
def Regular (goals : List Goal) : Prop :=
  Plain goals ∨ goals = .entries :: behindEntries ∨
    goals = .separator sectionOpener :: .entries :: behindEntries

theorem plain_behindEntries : Plain behindEntries :=
  .inr (.inr ⟨[.separator sectionCloser], rfl, by simp [isWithinSection, readsEntries]⟩)

variable {g : Goal} {goals : List Goal}

theorem Plain.tail (h : Plain (g :: goals)) : Plain goals := by
  rcases h with eq | eq | ⟨front, eq, within⟩
  · cases eq
  · obtain ⟨-, rfl⟩ := List.cons.inj eq
    exact .inl rfl
  · cases front with
    | nil =>
      obtain ⟨-, rfl⟩ := List.cons.inj eq
      exact .inr (.inl rfl)
    | cons g' front =>
      obtain ⟨-, rfl⟩ := List.cons.inj eq
      exact .inr (.inr ⟨front, rfl, fun g mem => within g (List.mem_cons_of_mem _ mem)⟩)

theorem Plain.readsEntries_eq (h : Plain (g :: goals)) : g.readsEntries = false := by
  rcases h with eq | eq | ⟨front, eq, within⟩
  · cases eq
  · obtain ⟨rfl, -⟩ := List.cons.inj eq
    rfl
  · cases front with
    | nil =>
      obtain ⟨rfl, -⟩ := List.cons.inj eq
      rfl
    | cons g' front =>
      obtain ⟨rfl, -⟩ := List.cons.inj eq
      exact (within g List.mem_cons_self).2

theorem Regular.eq_behindEntries (h : Regular (.entries :: goals)) : goals = behindEntries := by
  rcases h with plain | eq | eq
  · cases plain.readsEntries_eq
  · exact (List.cons.inj eq).2
  · cases eq

/-- Behind a goal that is met, the goals are plain, unless it opens a token section. -/
theorem Regular.tail (h : Regular (g :: goals)) :
    Plain goals ∨ g = .separator sectionOpener ∧ goals = .entries :: behindEntries := by
  rcases h with plain | eq | eq
  · exact .inl plain.tail
  · obtain ⟨-, rfl⟩ := List.cons.inj eq
    exact .inl plain_behindEntries
  · exact .inr (List.cons.inj eq)

end Goal

section Regular

open Goal

variable {m : Mode} {depth : Nat} {g : Goal} {goals new : List Goal} {d d' : Draft} {t : Token}

theorem Token.Opens.regular {r : Rule} (h : t.Opens r) :
    Regular (r.goals ++ [.commit, .sections]) := by
  obtain ⟨keyword, eq, -⟩ := h
  cases r <;> simp only [Rule.keyword?, reduceCtorEq] at eq
  · exact .inl (.inr (.inr ⟨[.grammarName], rfl, by simp [Goal.isWithinSection, readsEntries]⟩))
  · exact .inr (.inr rfl)
  · refine .inl (.inr (.inr ⟨Rule.productionSection.goals, rfl, ?_⟩))
    simp [Rule.goals, Goal.isWithinSection, readsEntries]

theorem Takes.regular_of_plain (takes : Takes m depth d t g new d') (h : Plain (g :: goals)) :
    Regular (new ++ goals) := by
  rcases h with eq | eq | ⟨front, eq, within⟩
  · cases eq
  · obtain ⟨rfl, rfl⟩ := List.cons.inj eq
    obtain ⟨-, rfl | ⟨r, opens, rfl⟩⟩ := takes.sections_cases
    · exact .inl (.inr (.inl rfl))
    · rw [List.append_nil]
      exact opens.regular
  · cases front with
    | nil =>
      obtain ⟨rfl, -⟩ := List.cons.inj eq
      exact absurd takes not_takes_commit
    | cons g' front =>
      obtain ⟨rfl, rfl⟩ := List.cons.inj eq
      rw [List.forall_mem_cons] at within
      refine .inl (.inr (.inr ⟨new ++ front, (List.append_assoc new front _).symm, ?_⟩))
      have inner : ∀ g' ∈ new, g'.isWithinSection ∧ g'.readsEntries = false := fun g' mem =>
        ⟨takes.isWithinSection within.1.1 g' mem,
          takes.readsEntries_eq within.1.1 within.1.2 g' mem⟩
      exact List.forall_mem_append.2 ⟨inner, within.2⟩

theorem Takes.regular (takes : Takes m depth d t g new d') (h : Regular (g :: goals))
    (other : g ≠ .entries) : Regular (new ++ goals) ∧ d'.warnings = d.warnings := by
  rcases h with plain | eq | eq
  · exact ⟨takes.regular_of_plain plain, takes.warnings_eq (.inr plain.readsEntries_eq)⟩
  · exact absurd (List.cons.inj eq).1 other
  · obtain ⟨rfl, rfl⟩ := List.cons.inj eq
    obtain ⟨-, rfl, rfl⟩ := takes.separator_eq
    exact ⟨.inr (.inl rfl), rfl⟩

theorem Passes.warnings_eq_of_regular (passes : Passes m d t g d') (h : Regular (g :: goals)) :
    d'.warnings = d.warnings := by
  rcases h with plain | eq | eq
  · exact passes.warnings_eq (.inr plain.readsEntries_eq)
  · obtain ⟨rfl, -⟩ := List.cons.inj eq
    cases passes
    rfl
  · obtain ⟨rfl, -⟩ := List.cons.inj eq
    cases passes
    rfl

end Regular

/-! ### Drafts without their warnings -/

/-- The draft without its warnings. -/
def Draft.quiet (d : Draft) : Draft :=
  { d with notices := d.notices.filter (·.severity ≠ .warning) }

@[simp]
theorem Draft.quiet_note_entrySkipped (d : Draft) (t : Token) :
    (d.note (.entrySkipped t)).quiet = d.quiet := by
  simp [quiet, note, Notice.severity]

@[simp]
theorem Draft.warnings_quiet (d : Draft) : d.quiet.warnings = [] := by
  simp [quiet, warnings]

/-- Leaving warnings out is noticed by no goal. -/
def Recasting.quiet : Recasting where
  draft := Draft.quiet
  token := id
  kind_token := Token.kind_id
  text_token := Token.text_id
  counter_draft _ := rfl
  draft_add _ _ := rfl
  draft_attach _ _ := rfl
  draft_beginProduction _ _ := rfl
  draft_endProduction _ _ _ := by
    simp [Draft.quiet, Draft.endProduction, Draft.note, Draft.add, Notice.severity]
  draft_commit _ := rfl

/-! ### Rounds -/

section Rounds

variable {m : Mode} {g : Goal} {goals new : List Goal} {d d' : Draft} {t : Token}
  {ts : List Token}

theorem Takes.eq_dropLast (takes : Takes m (Goal.openGroups goals) d t .entries new d') :
    new = new.dropLast ++ [.entries] := by
  obtain ⟨front, eq⟩ := takes.exists_repeated rfl
  rw [eq, List.dropLast_concat]

/-- The entries are read round after round. -/
theorem read_round (closed : Goal.openGroups goals = 0)
    (takes : Takes m (Goal.openGroups goals) d t .entries new d') (ts : List Token) :
    read m (.entries :: goals) d (t :: ts) =
      (read m new.dropLast d' ts).andThen (read m (.entries :: goals)) := by
  have closed' : Goal.openGroups (.entries :: goals) = 0 := by
    rw [Goal.openGroups_cons, closed]
    rfl
  have inRow : new ++ goals = new.dropLast ++ .entries :: goals := by
    conv => lhs; rw [takes.eq_dropLast, List.append_assoc, List.singleton_append]
  rw [read_take takes, inRow, read_append m closed']

/-- A pattern is read, or the reader warns and goes on as if there were no entry. -/
theorem read_pattern_cases {name : String} (lenient : m.strict = false)
    (ok : (read m [.pattern name] d ts).fault = none) :
    (read m [.pattern name] d ts).draft.warnings ≠ d.warnings ∧
        (read m [.pattern name] d ts).draft.quiet = d.quiet ∨
      ∃ u us, ts = u :: us ∧ u.kind = .literal ∧ ∀ vs, read m [.pattern name] d (u :: vs) =
        ⟨none, d.add (.leaf (.token name u.text)), vs⟩ := by
  cases ts with
  | nil => cases ok
  | cons u us =>
    by_cases closes : u.isSymbol sectionCloser
    · have passed : read m [.pattern name] d (u :: us) = _ :=
        (read_pass (.pattern lenient closes) us).trans (read_nil m _ _)
      rw [passed]
      exact .inl (by simp)
    · by_cases kind : u.kind = .literal
      · refine .inr ⟨u, us, rfl, kind, ?_⟩
        intro vs
        exact (read_take (.pattern kind) vs).trans (read_nil m _ _)
      · have skipped : read m [.pattern name] d (u :: us) = _ :=
          (read_take (.skipPattern lenient kind (eq_false_of_ne_true closes)) us).trans
            (read_nil m _ _)
        rw [skipped]
        exact .inl (by simp)

/-- **A round of the entries** warns and leaves all as it was, or it adds an entry, whatever stands
behind it. -/
theorem round_cases (lenient : m.strict = false)
    (takes : Takes m (Goal.openGroups goals) d t .entries new d')
    (ok : (read m new.dropLast d' ts).fault = none) :
    (read m new.dropLast d' ts).draft.warnings ≠ d.warnings ∧
        (read m new.dropLast d' ts).draft.quiet = d.quiet ∨
      (read m new.dropLast d' ts).draft.warnings = d.warnings ∧ d'.warnings = d.warnings ∧
        t.kind = .identifier ∧ ∃ taken, ts = taken ++ (read m new.dropLast d' ts).rest ∧
          ∀ us, read m new.dropLast d' (taken ++ us) =
            ⟨none, (read m new.dropLast d' ts).draft, us⟩ := by
  rcases takes.entries_cases with ⟨kind, rfl, rfl⟩ | ⟨rfl, rfl⟩
  · have sets : [Goal.separator ":", .pattern t.text, .entries].dropLast =
        [.separator ":", .pattern t.text] := rfl
    rw [sets] at ok ⊢
    rcases comes_cases ":" ts with ⟨u, us, rfl, isColon⟩ | other
    · rw [read_separator isColon] at ok ⊢
      refine (read_pattern_cases lenient ok).imp_right ?_
      rintro ⟨v, vs, rfl, -, pattern⟩
      rw [pattern]
      refine ⟨rfl, rfl, kind, [u, v], rfl, ?_⟩
      intro ws
      exact (read_separator isColon).trans (pattern ws)
    · rw [read_separator_of_lenient lenient other] at ok ⊢
      refine (read_pattern_cases lenient ok).imp_right ?_
      rintro ⟨v, vs, rfl, -, pattern⟩
      rw [pattern]
      refine ⟨rfl, rfl, kind, [v], rfl, ?_⟩
      intro ws
      have other' : ∀ u ∈ (v :: ws).head?, u.isSymbol ":" = false := other
      exact (read_separator_of_lenient lenient other').trans (pattern ws)
  · have none : read m [Goal.entries].dropLast (d.note (.entrySkipped t)) ts = _ := read_nil m _ _
    rw [none]
    exact .inl (by simp)

end Rounds

end GrammarNotation
