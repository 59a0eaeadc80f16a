import GrammarNotation.Reading.Run
import GrammarNotation.Description.Sentence

/-!
# What goals make of a token

The reactions of the goals as three relations, one for each kind of reaction, with a case for each
way in which it comes about, and a fourth one for goals that conclude. A proof about what readers
do goes through these cases.

## Main definitions

- `Goal.afterFactor?`, `Goal.afterProduction?` — what is left of a goal that begins with a factor
  or a production when this is read
- `Takes`, `Passes`, `Refuses` — the token is used up, is left to the next goal, is refused
- `Concludes` — the goal is met at the end of the tokens

## Main statements

- `react_eq_take_iff`, `react_eq_pass_iff`, `react_eq_refuse_iff` — these are the reactions
- `conclude_eq_ok_iff` — these are the goals that conclude

## Design notes

The four goals that begin with a factor share their cases, as do the two that begin with a
production; they differ only in what they set behind it.
-/

namespace GrammarNotation

/-- What is left of a goal that begins with a factor when the factor is read. -/
def Goal.afterFactor? : Goal → Option (List Goal)
  | .expression => some [.factors, .alternatives]
  | .term | .factors => some [.factors]
  | .factor => some []
  | _ => none

/-- What is left of a goal that begins with a production when the production is read. -/
def Goal.afterProduction? : Goal → Option (List Goal)
  | .productions => some [.productions]
  | .production => some []
  | _ => none

/-! ### The relations -/

section Relations

variable (m : Mode) (depth : Nat) (d : Draft) (t : Token)

/-- The goal uses the token up and sets new goals, with a new draft. -/
inductive Takes : Goal → List Goal → Draft → Prop
  | comment : t.kind = .comment → Takes .sections [.sections] d
  | grammarSection : t.IsKeyword "grammar" →
      Takes .sections (Rule.grammarSection.goals ++ [.commit, .sections]) d
  | tokenSection : t.IsKeyword "tokens" →
      Takes .sections (Rule.tokenSection.goals ++ [.commit, .sections]) d
  | productionSection : t.IsKeyword "productions" →
      Takes .sections (Rule.productionSection.goals ++ [.commit, .sections]) d
  | grammarName : t.kind = .identifier →
      Takes .grammarName [.separator ";"] (d.add (.leaf (.grammar t.text)))
  | separator {s : String} : t.isSymbol s → Takes (.separator s) [] d
  | entry : t.kind = .identifier →
      Takes .entries [.separator ":", .pattern t.text, .entries] d
  | skipEntry : m.strict = false → t.kind ≠ .identifier → t.isSymbol sectionCloser = false →
      Takes .entries [.entries] (d.note (.entrySkipped t))
  | pattern {name : String} : t.kind = .literal →
      Takes (.pattern name) [] (d.add (.leaf (.token name t.text)))
  | skipPattern {name : String} : m.strict = false → t.kind ≠ .literal →
      t.isSymbol sectionCloser = false → Takes (.pattern name) [] (d.note (.entrySkipped t))
  | production {g : Goal} {after : List Goal} : g.afterProduction? = some after →
      t.kind = .identifier →
      Takes g (.separator ":" :: .expression :: .separator ";"
        :: .endProduction (d.counter + 1) t.text :: after) (d.beginProduction t.text)
  | nonterminal {g : Goal} {after : List Goal} : g.afterFactor? = some after →
      t.kind = .identifier → Takes g after (d.attach (.nonterminal t.text))
  | terminal {g : Goal} {after : List Goal} : g.afterFactor? = some after →
      t.kind = .literal → Takes g after (d.attach (.terminal t.text))
  | group {g : Goal} {after : List Goal} {b : Bracket} : g.afterFactor? = some after →
      t.isSymbol b.opener → m.allows depth →
      Takes g (.expression :: .separator b.closer :: .closing b :: after)
        (d.attach (.mark (.opening b)))
  | action {g : Goal} {after : List Goal} : g.afterFactor? = some after →
      t.isSymbol actionOpener → Takes g (.code :: after) d
  | bar : t.isSymbol Mark.bar.text →
      Takes .alternatives [.term, .alternatives] (d.attach (.mark .bar))
  | code : t.kind = .literal → Takes .code [.separator actionCloser] (d.attach (.action t.text))

/-- The goal is met without the token, with a new draft. -/
inductive Passes : Goal → Draft → Prop
  | separator {s : String} : m.strict = false → t.isSymbol s = false → Passes (.separator s) d
  | entries : t.isSymbol sectionCloser → Passes .entries d
  | pattern {name : String} : m.strict = false → t.isSymbol sectionCloser →
      Passes (.pattern name) (d.note (.entrySkipped t))
  | productions : t.isSymbol sectionCloser → Passes .productions d
  | factors : startsFactor t = false → Passes .factors d
  | alternatives : t.isSymbol Mark.bar.text = false → Passes .alternatives d
  | closing {b : Bracket} : Passes (.closing b) (d.attach (.mark (.closing b)))
  | endProduction {number : Nat} {name : String} :
      Passes (.endProduction number name) (d.endProduction number name)
  | commit : Passes .commit d.commit

/-- The goal refuses the token with a fault, having used it up or not. -/
inductive Refuses : Goal → Fault → Bool → Prop
  | sections : t.kind ≠ .comment → ¬ t.IsKeyword "grammar" → ¬ t.IsKeyword "tokens" →
      ¬ t.IsKeyword "productions" → Refuses .sections (.unrecognized t Phrase.description) true
  | grammarName : t.kind ≠ .identifier →
      Refuses .grammarName (.unrecognized t Phrase.grammar) true
  | separator {s : String} : m.strict → t.isSymbol s = false →
      Refuses (.separator s) (.wrongToken t s) false
  | entries : m.strict → t.kind ≠ .identifier → t.isSymbol sectionCloser = false →
      Refuses .entries (.unrecognized t Phrase.token) true
  | closedPattern {name : String} : m.strict → t.isSymbol sectionCloser →
      Refuses (.pattern name) (.unrecognized t Phrase.token) false
  | pattern {name : String} : m.strict → t.kind ≠ .literal → t.isSymbol sectionCloser = false →
      Refuses (.pattern name) (.unrecognized t Phrase.token) true
  | production {g : Goal} {after : List Goal} : g.afterProduction? = some after →
      t.kind ≠ .identifier → (g = .productions → t.isSymbol sectionCloser = false) →
      Refuses g (.unrecognized t Phrase.production) true
  | factor {g : Goal} {after : List Goal} : g.afterFactor? = some after → g ≠ .factors →
      startsFactor t = false → Refuses g (.unrecognized t Phrase.factor) true
  | group {g : Goal} {after : List Goal} {b : Bracket} : g.afterFactor? = some after →
      t.isSymbol b.opener → m.allows depth = false → Refuses g (.nesting t Phrase.factor) true
  | code : t.kind ≠ .literal → Refuses .code (.unrecognized t Phrase.action) true

/-- The goal is met at the end of the tokens, with a new draft. -/
inductive Concludes : Goal → Draft → Prop
  | sections : Concludes .sections d
  | separator {s : String} : m.strict = false → Concludes (.separator s) d
  | entries : Concludes .entries d
  | productions : Concludes .productions d
  | factors : Concludes .factors d
  | alternatives : Concludes .alternatives d
  | closing {b : Bracket} : Concludes (.closing b) (d.attach (.mark (.closing b)))
  | endProduction {number : Nat} {name : String} :
      Concludes (.endProduction number name) (d.endProduction number name)
  | commit : Concludes .commit d.commit

end Relations

/-! ### Tokens -/

section Tokens

variable {t : Token} {s r : String}

theorem Token.isSymbol_eq_of_isSymbol (h : t.isSymbol s) : t.isSymbol r = (s == r) := by
  obtain ⟨kind, rfl⟩ := Token.isSymbol_iff.1 h
  simp [Token.isSymbol, kind]

theorem Token.isSymbol_eq_false_of_kind_eq {k : TokenClass} (h : t.kind = k)
    (ne : k ≠ .symbol) : t.isSymbol s = false := by
  simp [Token.isSymbol, h, ne]

theorem startsFactor_of_isSymbol (h : t.isSymbol s) :
    startsFactor t = (s == actionOpener || (Bracket.ofOpener? s).isSome) := by
  obtain ⟨kind, rfl⟩ := Token.isSymbol_iff.1 h
  simp [startsFactor, kind]

theorem startsFactor_of_kind_eq (h : t.kind = .identifier ∨ t.kind = .literal) :
    startsFactor t := by
  rcases h with h | h <;> simp [startsFactor, h]

end Tokens

/-! ### The relations are the reactions -/

section Reactions

variable {m : Mode} {depth : Nat} {g : Goal} {after new : List Goal} {d d' : Draft} {t : Token}
  {f : Fault} {isTaken : Bool}

/-- What the relations say about a reaction. -/
def Reaction.Holds (m : Mode) (depth : Nat) (d : Draft) (t : Token) (g : Goal) : Reaction → Prop
  | .take new d' => Takes m depth d t g new d'
  | .pass d' => Passes m d t g d'
  | .refuse f isTaken => Refuses m depth t g f isTaken

theorem holds_reactFactor (begins : g.afterFactor? = some after)
    (starts : g = .factors → startsFactor t) :
    (reactFactor m depth after d t).Holds m depth d t g := by
  unfold reactFactor
  -- Only further factors could do without this one, and they look before they try.
  have refuses (h : startsFactor t = false) :
      (Reaction.refuse (.unrecognized t Phrase.factor) true).Holds m depth d t g := by
    have other : g ≠ .factors := by
      intro eq
      simp [starts eq] at h
    exact .factor begins other h
  split
  · next kind => exact .nonterminal begins kind
  · next kind => exact .terminal begins kind
  · next kind =>
    split
    · next b opens =>
      have isOpener : t.isSymbol b.opener :=
        Token.isSymbol_iff.2 ⟨kind, Bracket.ofOpener?_eq_some_iff.1 opens⟩
      split
      · next allowed => exact .group begins isOpener allowed
      · next allowed => exact .group begins isOpener (eq_false_of_ne_true allowed)
    · next none =>
      split
      · next text => exact .action begins (Token.isSymbol_iff.2 ⟨kind, text⟩)
      · next text => exact refuses (by simp [startsFactor, kind, none, text])
  · next notIdentifier notLiteral notSymbol =>
    refine refuses ?_
    unfold startsFactor
    split <;> first | rfl | contradiction

theorem holds_reactProduction (begins : g.afterProduction? = some after)
    (open_ : g = .productions → t.isSymbol sectionCloser = false) :
    (reactProduction after d t).Holds m depth d t g := by
  unfold reactProduction
  split
  · next isName => exact .production begins isName
  · next isName => exact .production begins isName open_

theorem holds_reactSections : (reactSections d t).Holds m depth d t .sections := by
  unfold reactSections
  split
  · next kind => exact .comment kind
  · next kind =>
    split
    · next text => exact .grammarSection ⟨kind, text⟩
    · next first =>
      split
      · next text => exact .tokenSection ⟨kind, text⟩
      · next second =>
        split
        · next text => exact .productionSection ⟨kind, text⟩
        · next third =>
          exact .sections (by simp [kind]) (fun h => first h.2) (fun h => second h.2)
            (fun h => third h.2)
  · next notComment notKeyword =>
    exact .sections notComment (fun h => notKeyword h.1) (fun h => notKeyword h.1)
      (fun h => notKeyword h.1)

/-- Every reaction is described by the relations. -/
theorem holds_react (m : Mode) (depth : Nat) (g : Goal) (d : Draft) (t : Token) :
    (react m depth g d t).Holds m depth d t g := by
  cases g with
  | sections => exact holds_reactSections
  | grammarName =>
    simp only [react]
    split
    · next isName => exact .grammarName isName
    · next isName => exact .grammarName isName
  | separator s =>
    simp only [react]
    split
    · next isSymbol => exact .separator isSymbol
    · next isSymbol =>
      split
      · next strict => exact .separator strict (eq_false_of_ne_true isSymbol)
      · next strict =>
        exact .separator (eq_false_of_ne_true strict)
          (eq_false_of_ne_true isSymbol)
  | entries =>
    simp only [react]
    split
    · next closes => exact .entries closes
    · next closes =>
      split
      · next isName => exact .entry isName
      · next isName =>
        split
        · next strict => exact .entries strict isName (eq_false_of_ne_true closes)
        · next strict =>
          exact .skipEntry (eq_false_of_ne_true strict) isName
            (eq_false_of_ne_true closes)
  | pattern name =>
    simp only [react]
    split
    · next closes =>
      split
      · next strict => exact .closedPattern strict closes
      · next strict => exact .pattern (eq_false_of_ne_true strict) closes
    · next closes =>
      split
      · next isPattern => exact .pattern isPattern
      · next isPattern =>
        split
        · next strict => exact .pattern strict isPattern (eq_false_of_ne_true closes)
        · next strict =>
          exact .skipPattern (eq_false_of_ne_true strict) isPattern
            (eq_false_of_ne_true closes)
  | productions =>
    simp only [react]
    split
    · next closes => exact .productions closes
    · next closes =>
      exact holds_reactProduction rfl fun _ => eq_false_of_ne_true closes
  | production => exact holds_reactProduction rfl (fun h => Goal.noConfusion h)
  | expression => exact holds_reactFactor rfl (fun h => Goal.noConfusion h)
  | alternatives =>
    simp only [react]
    split
    · next isBar => exact .bar isBar
    · next isBar => exact .alternatives (eq_false_of_ne_true isBar)
  | term => exact holds_reactFactor rfl (fun h => Goal.noConfusion h)
  | factors =>
    simp only [react]
    split
    · next starts => exact holds_reactFactor rfl fun _ => starts
    · next starts => exact .factors (eq_false_of_ne_true starts)
  | factor => exact holds_reactFactor rfl (fun h => Goal.noConfusion h)
  | code =>
    simp only [react]
    split
    · next isCode => exact .code isCode
    · next isCode => exact .code isCode
  | closing b => exact .closing
  | endProduction number name => exact .endProduction
  | commit => exact .commit

theorem holds_of_react_eq {r : Reaction} (h : react m depth g d t = r) :
    r.Holds m depth d t g := by
  have holds := holds_react m depth g d t
  rwa [h] at holds

theorem react_eq_reactFactor (begins : g.afterFactor? = some after)
    (starts : g = .factors → startsFactor t) :
    react m depth g d t = reactFactor m depth after d t := by
  cases g <;> simp only [Goal.afterFactor?, Option.some.injEq, reduceCtorEq] at begins <;>
    subst begins
  · rfl
  · rfl
  · simp only [react, starts rfl, if_true]
  · rfl

theorem react_eq_reactProduction (begins : g.afterProduction? = some after)
    (open_ : g = .productions → t.isSymbol sectionCloser = false) :
    react m depth g d t = reactProduction after d t := by
  cases g <;> simp only [Goal.afterProduction?, Option.some.injEq, reduceCtorEq] at begins <;>
    subst begins
  · simp only [react, open_ rfl, Bool.false_eq_true, if_false]
  · rfl

theorem react_of_takes (h : Takes m depth d t g new d') : react m depth g d t = .take new d' := by
  cases h with
  | comment kind => simp [react, reactSections, kind]
  | grammarSection h => simp [react, reactSections, h.1, h.2]
  | tokenSection h => simp [react, reactSections, h.1, h.2]
  | productionSection h => simp [react, reactSections, h.1, h.2]
  | grammarName kind => exact if_pos kind
  | separator isSymbol => exact if_pos isSymbol
  | entry kind =>
    have other := Token.isSymbol_eq_false_of_kind_eq (s := sectionCloser) kind (by decide)
    simp [react, other, kind]
  | skipEntry lenient kind other => simp [react, other, kind, lenient]
  | pattern kind =>
    have other := Token.isSymbol_eq_false_of_kind_eq (s := sectionCloser) kind (by decide)
    simp [react, other, kind]
  | skipPattern lenient kind other => simp [react, other, kind, lenient]
  | production begins kind =>
    have other := Token.isSymbol_eq_false_of_kind_eq (s := sectionCloser) kind (by decide)
    rw [react_eq_reactProduction begins fun _ => other]
    exact if_pos kind
  | nonterminal begins kind =>
    rw [react_eq_reactFactor begins fun _ => startsFactor_of_kind_eq (.inl kind)]
    simp [reactFactor, kind]
  | terminal begins kind =>
    rw [react_eq_reactFactor begins fun _ => startsFactor_of_kind_eq (.inr kind)]
    simp [reactFactor, kind]
  | group begins opens allowed =>
    rw [react_eq_reactFactor begins fun _ => by simp [startsFactor_of_isSymbol opens]]
    obtain ⟨kind, text⟩ := Token.isSymbol_iff.1 opens
    simp [reactFactor, kind, text, allowed]
  | action begins opens =>
    have none : Bracket.ofOpener? actionOpener = none := by decide
    rw [react_eq_reactFactor begins fun _ => by simp [startsFactor_of_isSymbol opens]]
    obtain ⟨kind, text⟩ := Token.isSymbol_iff.1 opens
    simp [reactFactor, kind, text, none]
  | bar isBar => exact if_pos isBar
  | code kind => exact if_pos kind

theorem react_of_passes (h : Passes m d t g d') : react m depth g d t = .pass d' := by
  cases h with
  | separator lenient other => simp [react, other, lenient]
  | entries closes => exact if_pos closes
  | pattern lenient closes => simp [react, closes, lenient]
  | productions closes => exact if_pos closes
  | factors starts => simp [react, starts]
  | alternatives other => simp [react, other]
  | closing => rfl
  | endProduction => rfl
  | commit => rfl

theorem reactFactor_of_startsFactor_eq_false (h : startsFactor t = false) :
    reactFactor m depth after d t = .refuse (.unrecognized t Phrase.factor) true := by
  cases kind : t.kind with
  | symbol =>
    simp only [startsFactor, kind, Bool.or_eq_false_iff, beq_eq_false_iff_ne,
      Option.isSome_eq_false_iff, Option.isNone_iff_eq_none] at h
    simp [reactFactor, kind, h.1, h.2]
  | identifier | literal => simp [startsFactor, kind] at h
  | _ => simp [reactFactor, kind]

theorem react_of_refuses (h : Refuses m depth t g f isTaken) :
    react m depth g d t = .refuse f isTaken := by
  cases h with
  | sections notComment notGrammar notTokens notProductions =>
    cases kind : t.kind with
    | comment => exact absurd kind notComment
    | keyword =>
      simp only [Token.IsKeyword, kind, true_and] at notGrammar notTokens notProductions
      simp [react, reactSections, kind, notGrammar, notTokens, notProductions]
    | _ => simp [react, reactSections, kind]
  | grammarName kind => exact if_neg kind
  | separator strict other => simp [react, other, strict]
  | entries strict kind other => simp [react, other, kind, strict]
  | closedPattern strict closes => simp [react, closes, strict]
  | pattern strict kind other => simp [react, other, kind, strict]
  | production begins kind open_ =>
    rw [react_eq_reactProduction begins open_]
    exact if_neg kind
  | factor begins ne starts =>
    rw [react_eq_reactFactor begins fun eq => absurd eq ne]
    exact reactFactor_of_startsFactor_eq_false starts
  | group begins opens refused =>
    rw [react_eq_reactFactor begins fun _ => by simp [startsFactor_of_isSymbol opens]]
    obtain ⟨kind, text⟩ := Token.isSymbol_iff.1 opens
    simp [reactFactor, kind, text, refused]
  | code kind => exact if_neg kind

/-! ### What a goal takes -/

theorem Takes.separator_eq {s : String} (takes : Takes m depth d t (.separator s) new d') :
    t.isSymbol s ∧ new = [] ∧ d' = d := by
  cases takes with
  | separator isSymbol => exact ⟨isSymbol, rfl, rfl⟩
  | production begins => cases begins
  | nonterminal begins | terminal begins | group begins | action begins => cases begins

/-- Where entries are read a token begins an entry, or it is passed over. -/
theorem Takes.entries_cases (takes : Takes m depth d t .entries new d') :
    t.kind = .identifier ∧ new = [.separator ":", .pattern t.text, .entries] ∧ d' = d ∨
      new = [.entries] ∧ d' = d.note (.entrySkipped t) := by
  cases takes with
  | entry kind => exact .inl ⟨kind, rfl, rfl⟩
  | skipEntry => exact .inr ⟨rfl, rfl⟩
  | production begins => cases begins
  | nonterminal begins | terminal begins | group begins | action begins => cases begins

/-- The pattern of an entry is one token, be it a literal or not. -/
theorem Takes.pattern_eq {name : String} (takes : Takes m depth d t (.pattern name) new d') :
    new = [] := by
  cases takes with
  | pattern | skipPattern => rfl
  | production begins => cases begins
  | nonterminal begins | terminal begins | group begins | action begins => cases begins

/-- A section is put into the tree without a look at a token. -/
theorem not_takes_commit : ¬ Takes m depth d t .commit new d' := by
  intro takes
  cases takes with
  | production begins => cases begins
  | nonterminal begins | terminal begins | group begins | action begins => cases begins

/-! ### What a fault is about -/

/-- A token that is refused is the one that the fault is about. -/
theorem Refuses.token_eq (h : Refuses m depth t g f isTaken) : f.token = some t := by
  cases h <;> rfl

/-- Between sections a token that is refused is used up. -/
theorem Refuses.sections_eq (h : Refuses m depth t .sections f isTaken) :
    f = .unrecognized t Phrase.description ∧ isTaken = true := by
  cases h with
  | sections => exact ⟨rfl, rfl⟩
  | production begins | factor begins | group begins => cases begins

theorem Refuses.kind_ne_endOfInput (h : Refuses m depth t g f isTaken) :
    f.kind ≠ .endOfInput := by
  intro kind
  cases h <;> cases kind

/-! ### The end of the tokens -/

theorem concludes_of_conclude_eq (h : conclude m g d = .ok d') : Concludes m d g d' := by
  cases g <;> simp only [conclude, reduceCtorEq, Except.ok.injEq] at h
  case separator =>
    split at h
    · cases h
    · next lenient => exact Except.ok.inj h ▸ .separator (eq_false_of_ne_true lenient)
  all_goals subst h; constructor

theorem conclude_of_concludes (h : Concludes m d g d') : conclude m g d = .ok d' := by
  cases h with
  | separator lenient => simp [conclude, lenient]
  | _ => rfl

theorem conclude_eq_ok_iff : conclude m g d = .ok d' ↔ Concludes m d g d' :=
  ⟨concludes_of_conclude_eq, conclude_of_concludes⟩

/-- A goal that cannot conclude finds that the tokens end too early. -/
theorem exists_endOfInput_of_conclude (h : conclude m g d = .error f) :
    ∃ phrase, f = .endOfInput phrase := by
  cases g with
  | separator s =>
    rw [conclude] at h
    split at h
    · exact ⟨_, (Except.error.inj h).symm⟩
    · cases h
  | sections | entries | productions | alternatives | factors | closing | endProduction
  | commit => cases h
  | _ => exact ⟨_, (Except.error.inj h).symm⟩

/-- A goal that cannot conclude misses something at the end of the tokens. -/
theorem kind_of_conclude (h : conclude m g d = .error f) : f.kind = .endOfInput := by
  obtain ⟨phrase, rfl⟩ := exists_endOfInput_of_conclude h
  rfl

theorem react_eq_take_iff : react m depth g d t = .take new d' ↔ Takes m depth d t g new d' :=
  ⟨holds_of_react_eq, react_of_takes⟩

theorem react_eq_pass_iff : react m depth g d t = .pass d' ↔ Passes m d t g d' :=
  ⟨holds_of_react_eq, react_of_passes⟩

theorem react_eq_refuse_iff :
    react m depth g d t = .refuse f isTaken ↔ Refuses m depth t g f isTaken :=
  ⟨holds_of_react_eq, react_of_refuses⟩

end Reactions

end GrammarNotation
