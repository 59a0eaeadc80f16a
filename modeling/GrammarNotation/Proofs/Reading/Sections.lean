import GrammarNotation.Proofs.Reading.Sentences

/-!
# Section after section

A description is read one section at a time: its keyword, what its rule describes, and then its
nodes go to the tree. A complete section is read in the same way whatever stands behind it, since
it ends with a token of its own, or in front of a token that takes no part in it.

## Main definitions

- `Token.Opens` — the token is the keyword of the sections that a rule describes

## Main statements

- `read_opens` — the reading of a section and of what stands behind it
- `exists_read_section` — a section that is read without a fault, if the rest is cut short
-/

namespace GrammarNotation

/-- The keyword of the sections that a rule describes. -/
def Rule.keyword? : Rule → Option String
  | .grammarSection => some "grammar"
  | .tokenSection => some "tokens"
  | .productionSection => some "productions"
  | _ => none

/-- The token is the keyword of the sections that the rule describes. -/
def Token.Opens (t : Token) (r : Rule) : Prop :=
  ∃ keyword, r.keyword? = some keyword ∧ t.IsKeyword keyword

section Keywords

variable {m : Mode} {depth : Nat} {new : List Goal} {d d' : Draft} {t : Token} {r : Rule}

theorem Token.Opens.takes (h : t.Opens r) :
    Takes m depth d t .sections (r.goals ++ [.commit, .sections]) d := by
  obtain ⟨keyword, eq, isKeyword⟩ := h
  cases r <;> simp only [Rule.keyword?, Option.some.injEq, reduceCtorEq] at eq <;> subst eq
  · exact .grammarSection isKeyword
  · exact .tokenSection isKeyword
  · exact .productionSection isKeyword

/-- Between sections a token is a comment, or it opens a section. -/
theorem Takes.sections_cases (takes : Takes m depth d t .sections new d') :
    d' = d ∧ (new = [.sections] ∨ ∃ r, t.Opens r ∧ new = r.goals ++ [.commit, .sections]) := by
  cases takes with
  | comment => exact ⟨rfl, .inl rfl⟩
  | grammarSection isKeyword | tokenSection isKeyword | productionSection isKeyword =>
    exact ⟨rfl, .inr ⟨_, ⟨_, rfl, isKeyword⟩, rfl⟩⟩
  | production begins => cases begins
  | nonterminal begins | terminal begins | group begins | action begins => cases begins

theorem refuses_of_not_opens (notComment : t.kind ≠ .comment) (none : ∀ r, ¬ t.Opens r) :
    Refuses m depth t .sections (.unrecognized t Phrase.description) true :=
  .sections notComment (fun h => none .grammarSection ⟨_, rfl, h⟩)
    (fun h => none .tokenSection ⟨_, rfl, h⟩) (fun h => none .productionSection ⟨_, rfl, h⟩)

/-- A section is a name, or any number of entries or productions in braces. -/
theorem Token.Opens.goals_eq (h : t.Opens r) :
    r.goals = [.grammarName] ∨ ∃ g, g.repeats ∧ g ≠ .sections ∧
      r.goals = [.separator sectionOpener, g] ++ [.separator sectionCloser] := by
  obtain ⟨keyword, eq, -⟩ := h
  cases r <;> simp only [Rule.keyword?, reduceCtorEq] at eq
  · exact .inl rfl
  · exact .inr ⟨.entries, rfl, Goal.noConfusion, rfl⟩
  · exact .inr ⟨.productions, rfl, Goal.noConfusion, rfl⟩

end Keywords

section Sections

variable {m : Mode} {goals : List Goal} {d : Draft} {t : Token} {ts : List Token} {r : Rule}

theorem Outcome.andThen_of_none {o : Outcome} {next : Draft → List Token → Outcome}
    (ok : o.fault = none) : o.andThen next = next o.draft o.rest := by
  rw [andThen, ok]

theorem Outcome.andThen_of_some {o : Outcome} {next : Draft → List Token → Outcome} {f : Fault}
    (fault : o.fault = some f) : o.andThen next = o := by
  rw [andThen, fault]

theorem Outcome.fault_eq_none_of_andThen {o : Outcome} {next : Draft → List Token → Outcome}
    (ok : (o.andThen next).fault = none) : o.fault = none := by
  cases fault : o.fault with
  | none => rfl
  | some f =>
    rw [andThen_of_some fault, fault] at ok
    cases ok

/-- A section is read first, and from where it ends the description is read on. -/
theorem read_opens (h : t.Opens r) :
    read m [.sections] d (t :: ts) =
      (read m r.goals d ts).andThen fun d rest => read m [.sections] d.commit rest := by
  have opened : read m [.sections] d (t :: ts) =
      read m (r.goals ++ [.commit, .sections] ++ []) d ts := read_take h.takes ts
  have onward : read m [.commit, .sections] = fun d rest => read m [.sections] d.commit rest := by
    funext d rest
    exact read_commit
  rw [opened, List.append_nil, read_append m rfl, onward]

/-! ### Sections of which the rest is cut short -/

/-- Goals behind which a separator comes next are read up to this separator, whatever stands
behind it. -/
theorem exists_read_of_closes {front : List Goal} {u : Token} {us : List Token}
    {s : String} (ok : (read m front d ts).fault = none)
    (rest : (read m front d ts).rest = u :: us) (closes : u.isSymbol s) :
    ∃ taken, ts = taken ++ us ∧ ∀ vs,
      read m (front ++ [.separator s]) d (taken ++ vs) = ⟨none, (read m front d ts).draft, vs⟩ := by
  have steps := steps_of_read ok
  rw [rest] at steps
  obtain ⟨taken, eq, replay⟩ : ∃ taken, ts = taken ++ u :: us ∧ _ := steps.exists_taken rfl
  refine ⟨taken ++ [u], by simp [eq], ?_⟩
  intro vs
  have first : read m front d (taken ++ u :: vs) = _ :=
    (replay vs).outcome_eq.trans (read_nil m _ _)
  rw [List.append_assoc, List.singleton_append, read_append m rfl, first,
    Outcome.andThen_of_none rfl, read_separator closes, read_nil]

/-- A separator comes next, or it does not. -/
theorem comes_cases (s : String) (ts : List Token) :
    (∃ u us, ts = u :: us ∧ u.isSymbol s) ∨ ∀ u ∈ ts.head?, u.isSymbol s = false := by
  cases ts with
  | nil => exact .inr fun u mem => nomatch mem
  | cons t ts =>
    cases h : t.isSymbol s with
    | true => exact .inl ⟨t, ts, rfl, h⟩
    | false =>
      right
      rintro u ⟨⟩
      exact h

theorem read_separator_of_lenient {s : String} (lenient : m.strict = false)
    (other : ∀ u ∈ ts.head?, u.isSymbol s = false) :
    read m (.separator s :: goals) d ts = read m goals d ts := by
  cases ts with
  | nil => exact read_conclude (by simp [conclude, lenient])
  | cons u us => exact read_pass (.separator lenient (other u rfl)) us

/-- A separator that is read without a fault comes next, or the reader does without it. -/
theorem separator_cases {s : String} (ok : (read m [.separator s] d ts).fault = none) :
    (∃ u us, ts = u :: us ∧ u.isSymbol s) ∨
      m.strict = false ∧ ∀ u ∈ ts.head?, u.isSymbol s = false := by
  refine (comes_cases s ts).imp_right fun other => ⟨?_, other⟩
  cases strict : m.strict with
  | false => rfl
  | true =>
    cases ts with
    | nil =>
      have stops : Stops m ⟨[.separator s], d, []⟩ _ := .missing (by rw [conclude, strict]; rfl)
      have eq : read m [.separator s] d [] = _ := stops.outcome_eq
      rw [eq] at ok
      cases ok
    | cons u us =>
      rw [fault_read_of_refuses (.separator strict (other u rfl))] at ok
      cases ok

/-- A grammar section is a name, and the separator behind it if that comes next. -/
theorem exists_read_grammarName (ok : (read m [.grammarName] d ts).fault = none) :
    ∃ taken, ts = taken ++ (read m [.grammarName] d ts).rest ∧
      ∀ us, us <+: (read m [.grammarName] d ts).rest →
        read m [.grammarName] d (taken ++ us) = ⟨none, (read m [.grammarName] d ts).draft, us⟩ := by
  cases ts with
  | nil => cases ok
  | cons name ts =>
    by_cases kind : name.kind = .identifier
    · have named : ∀ us, read m [.grammarName] d (name :: us) =
          read m [.separator ";"] (d.add (.leaf (.grammar name.text))) us :=
        fun us => read_take (.grammarName kind) us
      rw [named] at ok ⊢
      rcases separator_cases ok with ⟨u, us, rfl, isSymbol⟩ | ⟨lenient, other⟩
      · rw [read_separator isSymbol, read_nil]
        refine ⟨[name, u], rfl, ?_⟩
        intro vs _
        exact (named _).trans ((read_separator isSymbol).trans (read_nil m _ _))
      · rw [read_separator_of_lenient lenient other, read_nil]
        refine ⟨[name], rfl, ?_⟩
        intro vs front
        have other' : ∀ u ∈ vs.head?, u.isSymbol ";" = false := by
          intro u mem
          obtain ⟨vs, rfl⟩ := List.head?_eq_some_iff.1 mem
          obtain ⟨us, rfl⟩ := front
          exact other u rfl
        exact (named _).trans ((read_separator_of_lenient lenient other').trans (read_nil m _ _))
    · rw [fault_read_of_refuses (.grammarName kind)] at ok
      cases ok

/-- **A section that is read without a fault is read in the same way if the tokens behind it are
cut short.** -/
theorem exists_read_section (h : t.Opens r) (ok : (read m r.goals d ts).fault = none) :
    ∃ taken, ts = taken ++ (read m r.goals d ts).rest ∧
      ∀ us, us <+: (read m r.goals d ts).rest →
        read m r.goals d (taken ++ us) = ⟨none, (read m r.goals d ts).draft, us⟩ := by
  rcases h.goals_eq with eq | ⟨g, repeats, notSections, eq⟩
  · rw [eq] at ok ⊢
    exact exists_read_grammarName ok
  · rw [eq] at ok ⊢
    have inRow : read m ([.separator sectionOpener, g] ++ [.separator sectionCloser]) d ts = _ :=
      read_append m rfl _ d ts
    have front : (read m [.separator sectionOpener, g] d ts).fault = none :=
      Outcome.fault_eq_none_of_andThen (inRow ▸ ok)
    cases rest : (read m [.separator sectionOpener, g] d ts).rest with
    | nil =>
      -- The section ends with the tokens.
      have all : (read m ([.separator sectionOpener, g] ++ [.separator sectionCloser]) d ts).rest =
          [] := by
        rw [inRow, Outcome.andThen_of_none front, rest]
        exact List.suffix_nil.1 (rest_read_suffix _ _ _ _)
      refine ⟨ts, by rw [all, List.append_nil], ?_⟩
      intro us us_prefix
      rw [all] at us_prefix
      obtain rfl := List.prefix_nil.1 us_prefix
      rw [List.append_nil, ← ok, ← all]
    | cons u us =>
      have closes : u.isSymbol sectionCloser :=
        (head?_rest_read repeats [.separator sectionOpener] front u (by
          simpa using congrArg List.head? rest)).2
      obtain ⟨taken, split, cut⟩ := exists_read_of_closes front rest closes
      have whole := cut us
      rw [← split] at whole
      rw [whole]
      exact ⟨taken, split, fun vs _ => cut vs⟩

end Sections

end GrammarNotation
