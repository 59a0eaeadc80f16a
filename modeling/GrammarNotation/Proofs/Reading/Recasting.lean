import GrammarNotation.Proofs.Reading.Growth

/-!
# What readers do not look at

A goal decides by the class and the text of the next token, and of the draft it uses no more than
the counter. So a draft and its tokens may be changed in other respects before a reading or after
it, and the outcome is the same.

## Main definitions

- `Recasting` — a change to drafts and tokens in respects that no goal looks at
- `Recasting.onto` — the change that puts other nodes and notices in front

## Main statements

- `read_recast` — recasting before a reading is recasting after it
- `read_onto` — what was built before plays no part in a reading
-/

namespace GrammarNotation

/-- The fault with its offending token changed. -/
def Fault.mapToken (f : Fault) (change : Token → Token) : Fault :=
  { f with token := f.token.map change }

/-- **A change to drafts and tokens that no goal notices**: it keeps what goals look at, and goes
along with what they do, warnings apart. -/
structure Recasting where
  draft : Draft → Draft
  token : Token → Token
  kind_token : ∀ t, (token t).kind = t.kind
  text_token : ∀ t, (token t).text = t.text
  counter_draft : ∀ d, (draft d).counter = d.counter
  draft_add : ∀ d n, draft (d.add n) = (draft d).add n
  draft_attach : ∀ d r, draft (d.attach r) = (draft d).attach r
  draft_beginProduction : ∀ d name, draft (d.beginProduction name) = (draft d).beginProduction name
  draft_endProduction : ∀ d number name,
    draft (d.endProduction number name) = (draft d).endProduction number name
  draft_commit : ∀ d, draft d.commit = (draft d).commit

theorem Token.kind_id (t : Token) : (id t).kind = t.kind := rfl

theorem Token.text_id (t : Token) : (id t).text = t.text := rfl

namespace Recasting

/-- Warnings are changed along with the tokens that they are about. -/
def KeepsWarnings (f : Recasting) : Prop :=
  ∀ d t, f.draft (d.note (.entrySkipped t)) = (f.draft d).note (.entrySkipped (f.token t))

/-- Other nodes of the tree and other notices in front of those of the draft. -/
def onto (children : List Tree) (notices : List Notice) : Recasting where
  draft d := { d with children := children ++ d.children, notices := notices ++ d.notices }
  token := id
  kind_token := Token.kind_id
  text_token := Token.text_id
  counter_draft _ := rfl
  draft_add _ _ := rfl
  draft_attach _ _ := rfl
  draft_beginProduction _ _ := rfl
  draft_endProduction _ _ _ := by simp [Draft.endProduction, Draft.note, Draft.add]
  draft_commit _ := by simp [Draft.commit]

theorem keepsWarnings_onto (children : List Tree) (notices : List Notice) :
    (onto children notices).KeepsWarnings := by
  intro d t
  simp [onto, Draft.note]

variable (f : Recasting)

theorem isSymbol_token (t : Token) (s : String) : (f.token t).isSymbol s = t.isSymbol s := by
  rw [Token.isSymbol, f.kind_token, f.text_token, Token.isSymbol]

theorem isKeyword_token {t : Token} {s : String} (h : t.IsKeyword s) :
    (f.token t).IsKeyword s :=
  ⟨(f.kind_token t).trans h.1, (f.text_token t).trans h.2⟩

theorem isKeyword_of_token {t : Token} {s : String} (h : (f.token t).IsKeyword s) :
    t.IsKeyword s :=
  ⟨(f.kind_token t).symm.trans h.1, (f.text_token t).symm.trans h.2⟩

theorem startsFactor_token (t : Token) : startsFactor (f.token t) = startsFactor t := by
  rw [startsFactor, f.kind_token, f.text_token, startsFactor]

end Recasting

section Steps

variable (f : Recasting) {m : Mode} {depth : Nat} {g : Goal} {goals new : List Goal}
  {d d' : Draft} {t : Token}

theorem Takes.recast (takes : Takes m depth d t g new d')
    (calm : f.KeepsWarnings ∨ d'.warnings = d.warnings) :
    Takes m depth (f.draft d) (f.token t) g new (f.draft d') := by
  have kind := f.kind_token t
  have text := f.text_token t
  cases takes with
  | comment h => exact .comment (kind.trans h)
  | grammarSection h => exact .grammarSection (f.isKeyword_token h)
  | tokenSection h => exact .tokenSection (f.isKeyword_token h)
  | productionSection h => exact .productionSection (f.isKeyword_token h)
  | grammarName h =>
    rw [f.draft_add, ← text]
    exact .grammarName (kind.trans h)
  | separator h => exact .separator ((f.isSymbol_token t _).trans h)
  | entry h =>
    rw [← text]
    exact .entry (kind.trans h)
  | skipEntry lenient h other =>
    rw [calm.resolve_right (by simp) d t]
    exact .skipEntry lenient (kind ▸ h) ((f.isSymbol_token t _).trans other)
  | pattern h =>
    rw [f.draft_add, ← text]
    exact .pattern (kind.trans h)
  | skipPattern lenient h other =>
    rw [calm.resolve_right (by simp) d t]
    exact .skipPattern lenient (kind ▸ h) ((f.isSymbol_token t _).trans other)
  | production begins h =>
    rw [f.draft_beginProduction, ← text, ← f.counter_draft d]
    exact .production begins (kind.trans h)
  | nonterminal begins h =>
    rw [f.draft_attach, ← text]
    exact .nonterminal begins (kind.trans h)
  | terminal begins h =>
    rw [f.draft_attach, ← text]
    exact .terminal begins (kind.trans h)
  | group begins opens allowed =>
    rw [f.draft_attach]
    exact .group begins ((f.isSymbol_token t _).trans opens) allowed
  | action begins opens => exact .action begins ((f.isSymbol_token t _).trans opens)
  | bar isBar =>
    rw [f.draft_attach]
    exact .bar ((f.isSymbol_token t _).trans isBar)
  | code h =>
    rw [f.draft_attach, ← text]
    exact .code (kind.trans h)

theorem Passes.recast (passes : Passes m d t g d')
    (calm : f.KeepsWarnings ∨ d'.warnings = d.warnings) :
    Passes m (f.draft d) (f.token t) g (f.draft d') := by
  cases passes with
  | separator lenient other => exact .separator lenient ((f.isSymbol_token t _).trans other)
  | entries closes => exact .entries ((f.isSymbol_token t _).trans closes)
  | pattern lenient closes =>
    rw [calm.resolve_right (by simp) d t]
    exact .pattern lenient ((f.isSymbol_token t _).trans closes)
  | productions closes => exact .productions ((f.isSymbol_token t _).trans closes)
  | factors starts => exact .factors ((f.startsFactor_token t).trans starts)
  | alternatives other => exact .alternatives ((f.isSymbol_token t _).trans other)
  | closing => exact f.draft_attach d _ ▸ .closing
  | endProduction => exact f.draft_endProduction d _ _ ▸ .endProduction
  | commit => exact f.draft_commit d ▸ .commit

theorem Refuses.recast {fault : Fault} {isTaken : Bool}
    (refuses : Refuses m depth t g fault isTaken) :
    Refuses m depth (f.token t) g (fault.mapToken f.token) isTaken := by
  have kind := f.kind_token t
  cases refuses with
  | sections notComment first second third =>
    exact .sections (kind ▸ notComment) (first ∘ f.isKeyword_of_token)
      (second ∘ f.isKeyword_of_token) (third ∘ f.isKeyword_of_token)
  | grammarName h => exact .grammarName (kind ▸ h)
  | separator strict other => exact .separator strict ((f.isSymbol_token t _).trans other)
  | entries strict h other => exact .entries strict (kind ▸ h) ((f.isSymbol_token t _).trans other)
  | closedPattern strict closes =>
    exact .closedPattern strict ((f.isSymbol_token t _).trans closes)
  | pattern strict h other => exact .pattern strict (kind ▸ h) ((f.isSymbol_token t _).trans other)
  | production begins h open_ =>
    exact .production begins (kind ▸ h) fun eq => (f.isSymbol_token t _).trans (open_ eq)
  | factor begins ne starts => exact .factor begins ne ((f.startsFactor_token t).trans starts)
  | group begins opens refused => exact .group begins ((f.isSymbol_token t _).trans opens) refused
  | code h => exact .code (kind ▸ h)

theorem conclude_recast (m : Mode) (g : Goal) (d : Draft) :
    conclude m g (f.draft d) = (conclude m g d).map f.draft := by
  cases g with
  | separator s => cases strict : m.strict <;> simp [conclude, strict, Except.map]
  | closing b => exact congrArg Except.ok (f.draft_attach d _).symm
  | endProduction number name => exact congrArg Except.ok (f.draft_endProduction d _ _).symm
  | commit => exact congrArg Except.ok (f.draft_commit d).symm
  | _ => rfl

end Steps

/-! ### Readings -/

/-- A moment in a reading, recast. -/
def Configuration.recast (f : Recasting) (c : Configuration) : Configuration :=
  ⟨c.goals, f.draft c.draft, c.rest.map f.token⟩

/-- An outcome, recast. -/
def Outcome.recast (f : Recasting) (o : Outcome) : Outcome :=
  ⟨o.fault.map (·.mapToken f.token), f.draft o.draft, o.rest.map f.token⟩

section Readings

variable {f : Recasting} {m : Mode}

theorem ReadingStep.recast {c c' : Configuration} (step : ReadingStep m c c')
    (calm : f.KeepsWarnings ∨ c'.draft.warnings = c.draft.warnings) :
    ReadingStep m (c.recast f) (c'.recast f) := by
  cases step with
  | take takes => exact .take (takes.recast f calm)
  | pass passes => exact .pass (passes.recast f calm)
  | conclude done => exact .conclude (by rw [conclude_recast, done]; rfl)

theorem ReadingSteps.recast {c c' : Configuration} (steps : ReadingSteps m c c')
    (calm : f.KeepsWarnings ∨ c'.draft.warnings = c.draft.warnings) :
    ReadingSteps m (c.recast f) (c'.recast f) := by
  have each : Relation.ReflTransGen (fun c c' => ReadingStep m c c' ∧
      (f.KeepsWarnings ∨ c'.draft.warnings = c.draft.warnings)) c c' := by
    rcases calm with keeps | calm
    · exact Relation.ReflTransGen.mono (fun _ _ step => ⟨step, .inl keeps⟩) _ _ steps
    · exact Relation.ReflTransGen.mono (fun _ _ step => ⟨step.1, .inr step.2⟩) _ _
        (ReadingSteps.calm steps calm)
  clear steps calm
  induction each with
  | refl => exact .refl
  | tail _ step ih => exact ih.tail (step.1.recast step.2)

theorem Stops.recast {c : Configuration} {o : Outcome} (stops : Stops m c o) :
    Stops m (c.recast f) (o.recast f) := by
  cases stops with
  | met => exact .met
  | @refused g goals d t ts fault isTaken refuses =>
    have stops : Stops m ⟨g :: goals, f.draft d, f.token t :: ts.map f.token⟩ _ :=
      .refused (refuses.recast f)
    cases isTaken <;> exact stops
  | @missing g goals d fault missing =>
    obtain ⟨phrase, rfl⟩ := exists_endOfInput_of_conclude missing
    have missing' : conclude m g (f.draft d) = .error (.endOfInput phrase) := by
      rw [conclude_recast, missing]
      rfl
    exact .missing missing'

/-- **Recasting before a reading is recasting after it**, unless the reading warns and warnings
are not kept. -/
theorem read_recast {goals : List Goal} {d : Draft} {ts : List Token}
    (calm : f.KeepsWarnings ∨ (read m goals d ts).draft.warnings = d.warnings) :
    read m goals (f.draft d) (ts.map f.token) = (read m goals d ts).recast f := by
  obtain ⟨c, steps, stops⟩ := exists_stops_of_read m goals d ts
  rw [stops.draft_eq] at calm
  have same : read m goals (f.draft d) (ts.map f.token) = (c.recast f).outcome m :=
    (steps.recast calm).outcome_eq
  exact same.trans stops.recast.outcome_eq

/-- The same where tokens stay as they are. -/
theorem read_draft (same : f.token = id) {goals : List Goal} {d : Draft} {ts : List Token}
    (calm : f.KeepsWarnings ∨ (read m goals d ts).draft.warnings = d.warnings) :
    read m goals (f.draft d) ts =
      { read m goals d ts with draft := f.draft (read m goals d ts).draft } := by
  have fault : ∀ fault : Fault, fault.mapToken id = fault := by
    intro fault
    simp [Fault.mapToken]
  have recast := read_recast calm
  rw [Outcome.recast, same, List.map_id, List.map_id] at recast
  rw [recast]
  simp [fault]

/-- What was built and noted before plays no part in a reading. -/
theorem read_onto (children : List Tree) (notices : List Notice) (goals : List Goal) (d : Draft)
    (ts : List Token) :
    read m goals ((Recasting.onto children notices).draft d) ts =
      { read m goals d ts with
        draft := (Recasting.onto children notices).draft (read m goals d ts).draft } :=
  read_draft rfl (.inl (Recasting.keepsWarnings_onto children notices))

end Readings

end GrammarNotation
