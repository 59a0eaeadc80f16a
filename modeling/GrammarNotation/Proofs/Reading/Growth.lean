import GrammarNotation.Proofs.Reading.Steps

/-!
# What a reading adds

A reading takes nothing back: nodes, numbers and notices are only added. Warnings come from one
place, the entries of a token section, and only from lenient readers.

## Main definitions

- `Draft.GrowsTo` — more was built from the first draft on
- `Draft.warnings` — the warnings among the notices
- `Goal.readsEntries` — the goals that may warn

## Main statements

- `growsTo_read` — the draft of a reading has grown
- `ReadingSteps.calm` — what warns of nothing on the whole does so step by step
- `warnings_read_of_strict` — a strict reader warns of nothing
-/

namespace GrammarNotation

/-! ### Growing -/

/-- Nodes of the tree, numbers and notices were only added. -/
structure Draft.GrowsTo (d d' : Draft) : Prop where
  children : d.children <+: d'.children
  counter : d.counter ≤ d'.counter
  notices : d.notices <+: d'.notices

namespace Draft.GrowsTo

variable {d d' d'' : Draft}

theorem refl (d : Draft) : d.GrowsTo d :=
  ⟨List.prefix_refl _, Nat.le_refl _, List.prefix_refl _⟩

theorem trans (h : d.GrowsTo d') (h' : d'.GrowsTo d'') : d.GrowsTo d'' :=
  ⟨h.children.trans h'.children, Nat.le_trans h.counter h'.counter, h.notices.trans h'.notices⟩

theorem note (d : Draft) (n : Notice) : d.GrowsTo (d.note n) :=
  ⟨List.prefix_refl _, Nat.le_refl _, List.prefix_append _ _⟩

theorem beginProduction (d : Draft) (name : String) : d.GrowsTo (d.beginProduction name) :=
  ⟨List.prefix_refl _, Nat.le_succ _, List.prefix_refl _⟩

theorem endProduction (d : Draft) (number : Nat) (name : String) :
    d.GrowsTo (d.endProduction number name) :=
  ⟨List.prefix_refl _, Nat.le_refl _, List.prefix_append _ _⟩

theorem commit (d : Draft) : d.GrowsTo d.commit :=
  ⟨List.prefix_append _ _, Nat.le_refl _, List.prefix_refl _⟩

end Draft.GrowsTo

section Growing

variable {m : Mode} {depth : Nat} {g : Goal} {goals new : List Goal} {d d' : Draft} {t : Token}

theorem Takes.growsTo (takes : Takes m depth d t g new d') : d.GrowsTo d' := by
  cases takes with
  | skipEntry | skipPattern => exact .note d _
  | production => exact .beginProduction d _
  | _ => exact ⟨List.prefix_refl _, Nat.le_refl _, List.prefix_refl _⟩

theorem Passes.growsTo (passes : Passes m d t g d') : d.GrowsTo d' := by
  cases passes with
  | pattern => exact .note d _
  | endProduction => exact .endProduction d _ _
  | commit => exact .commit d
  | closing => exact ⟨List.prefix_refl _, Nat.le_refl _, List.prefix_refl _⟩
  | _ => exact .refl d

theorem Concludes.growsTo (concludes : Concludes m d g d') : d.GrowsTo d' := by
  cases concludes with
  | endProduction => exact .endProduction d _ _
  | commit => exact .commit d
  | closing => exact ⟨List.prefix_refl _, Nat.le_refl _, List.prefix_refl _⟩
  | _ => exact .refl d

theorem ReadingStep.growsTo {c c' : Configuration} (step : ReadingStep m c c') :
    c.draft.GrowsTo c'.draft := by
  cases step with
  | take takes => exact takes.growsTo
  | pass passes => exact passes.growsTo
  | conclude done => exact (concludes_of_conclude_eq done).growsTo

theorem ReadingSteps.growsTo {c c' : Configuration} (steps : ReadingSteps m c c') :
    c.draft.GrowsTo c'.draft :=
  steps.keeps (P := fun c' => c.draft.GrowsTo c'.draft) (fun step h => h.trans step.growsTo)
    (.refl _)

theorem growsTo_read (m : Mode) (goals : List Goal) (d : Draft) (ts : List Token) :
    d.GrowsTo (read m goals d ts).draft := by
  obtain ⟨c, steps, stops⟩ := exists_stops_of_read m goals d ts
  rw [stops.draft_eq]
  exact steps.growsTo

end Growing

/-! ### Warnings -/

/-- The warnings among the notices. -/
def Draft.warnings (d : Draft) : List Notice :=
  d.notices.filter (·.severity = .warning)

/-- The goals that may warn: those that read the entries of a token section. -/
def Goal.readsEntries : Goal → Bool
  | .entries | .pattern _ => true
  | _ => false

theorem Draft.GrowsTo.warnings {d d' : Draft} (h : d.GrowsTo d') : d.warnings <+: d'.warnings :=
  h.notices.filter _

@[simp]
theorem Draft.warnings_note_entrySkipped (d : Draft) (t : Token) :
    (d.note (.entrySkipped t)).warnings = d.warnings ++ [.entrySkipped t] := by
  simp [warnings, note, Notice.severity]

@[simp]
theorem Draft.warnings_endProduction (d : Draft) (number : Nat) (name : String) :
    (d.endProduction number name).warnings = d.warnings := by
  simp [warnings, endProduction, note, add, Notice.severity]

section Warnings

variable {m : Mode} {depth : Nat} {g : Goal} {goals new : List Goal} {d d' : Draft} {t : Token}

theorem Takes.warnings_eq (takes : Takes m depth d t g new d')
    (calm : m.strict ∨ g.readsEntries = false) : d'.warnings = d.warnings := by
  cases takes with
  | skipEntry lenient => simp [lenient, Goal.readsEntries] at calm
  | skipPattern lenient => simp [lenient, Goal.readsEntries] at calm
  | _ => rfl

theorem Passes.warnings_eq (passes : Passes m d t g d')
    (calm : m.strict ∨ g.readsEntries = false) : d'.warnings = d.warnings := by
  cases passes with
  | pattern lenient => simp [lenient, Goal.readsEntries] at calm
  | endProduction => exact d.warnings_endProduction _ _
  | _ => rfl

theorem Concludes.warnings_eq (concludes : Concludes m d g d') : d'.warnings = d.warnings := by
  cases concludes with
  | endProduction => exact d.warnings_endProduction _ _
  | _ => rfl

theorem ReadingStep.warnings_eq {c c' : Configuration} (step : ReadingStep m c c')
    (strict : m.strict) : c'.draft.warnings = c.draft.warnings := by
  cases step with
  | take takes => exact takes.warnings_eq (.inl strict)
  | pass passes => exact passes.warnings_eq (.inl strict)
  | conclude done => exact (concludes_of_conclude_eq done).warnings_eq

theorem ReadingSteps.warnings_eq {c c' : Configuration} (steps : ReadingSteps m c c')
    (strict : m.strict) : c'.draft.warnings = c.draft.warnings :=
  steps.keeps (P := fun c' => c'.draft.warnings = c.draft.warnings)
    (fun step h => (step.warnings_eq strict).trans h) rfl

/-- Steps that warn of nothing on the whole do so one by one, for warnings are not taken back. -/
theorem ReadingSteps.calm {c c' : Configuration} (steps : ReadingSteps m c c')
    (calm : c'.draft.warnings = c.draft.warnings) :
    Relation.ReflTransGen
      (fun c c' => ReadingStep m c c' ∧ c'.draft.warnings = c.draft.warnings) c c' := by
  induction steps using Relation.ReflTransGen.head_induction_on with
  | refl => exact .refl
  | @head c c₁ step steps ih =>
    have between : c₁.draft.warnings = c.draft.warnings := by
      have first := step.growsTo.warnings
      have onward := (ReadingSteps.growsTo steps).warnings
      rw [calm] at onward
      exact onward.eq_of_length_le first.length_le
    exact .head ⟨step, between⟩ (ih (calm.trans between.symm))

/-- At the end of the tokens there is nothing to warn of. -/
theorem warnings_read_end (m : Mode) (goals : List Goal) (d : Draft) :
    (read m goals d []).draft.warnings = d.warnings :=
  draft_read_end Draft.warnings Concludes.warnings_eq goals d

/-- A strict reader warns of nothing. -/
theorem warnings_read_of_strict (strict : m.strict) (goals : List Goal) (d : Draft)
    (ts : List Token) : (read m goals d ts).draft.warnings = d.warnings := by
  obtain ⟨c, steps, stops⟩ := exists_stops_of_read m goals d ts
  rw [stops.draft_eq]
  exact steps.warnings_eq strict

end Warnings

end GrammarNotation
