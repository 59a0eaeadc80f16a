import GrammarNotation.Proofs.Reading.Reactions
import GrammarNotation.Reading.Composition
import Mathlib.Logic.Relation

/-!
# Readings step by step

A reading goes from one configuration to the next: the first goal takes the next token, or it is
met without it, or it concludes at the end of the tokens. What holds of the first configuration
and is kept by every step therefore holds of the configuration at which the reading stops.

## Main definitions

- `Configuration` — the goals that are set, what was built, and the tokens that are left
- `ReadingStep`, `ReadingSteps` — one step, and any number of steps
- `Stops` — a configuration from which there is no step, with the outcome

## Main statements

- `exists_stops_of_read`, `steps_of_read` — a reading is a sequence of steps to a configuration
  that stops
- `ReadingSteps.keeps` — what every step keeps is kept by a reading
- `ReadingSteps.exists_taken` — steps that end in front of a token do not depend on what is
  behind it
- `read_eq_of_admits` — a reader that takes on more reads the same where the first one succeeds
- `read_eq_of_extends` — a reader that allows deeper groups reads the same, unless the first one
  gives up

## Design notes

The steps are those of `feed`, `finish` and `read` taken apart, so that an induction over a reading
has one case for each thing that a goal can do.
-/

namespace GrammarNotation

/-- A moment in a reading. -/
structure Configuration where
  goals : List Goal
  draft : Draft
  rest : List Token

/-- **One step of a reading**: the first goal takes the next token, is met without it, or
concludes at the end of the tokens. -/
inductive ReadingStep (m : Mode) : Configuration → Configuration → Prop
  | take {g : Goal} {goals new : List Goal} {d d' : Draft} {t : Token} {ts : List Token} :
      Takes m (Goal.openGroups goals) d t g new d' →
      ReadingStep m ⟨g :: goals, d, t :: ts⟩ ⟨new ++ goals, d', ts⟩
  | pass {g : Goal} {goals : List Goal} {d d' : Draft} {t : Token} {ts : List Token} :
      Passes m d t g d' → ReadingStep m ⟨g :: goals, d, t :: ts⟩ ⟨goals, d', t :: ts⟩
  | conclude {g : Goal} {goals : List Goal} {d d' : Draft} :
      conclude m g d = .ok d' → ReadingStep m ⟨g :: goals, d, []⟩ ⟨goals, d', []⟩

/-- Any number of steps of a reading. -/
abbrev ReadingSteps (m : Mode) : Configuration → Configuration → Prop :=
  Relation.ReflTransGen (ReadingStep m)

/-- **The end of a reading**: the goals are met, a token is refused, or a token is missing. -/
inductive Stops (m : Mode) : Configuration → Outcome → Prop
  | met {d : Draft} {ts : List Token} : Stops m ⟨[], d, ts⟩ ⟨none, d, ts⟩
  | refused {g : Goal} {goals : List Goal} {d : Draft} {t : Token} {ts : List Token} {f : Fault}
      {isTaken : Bool} : Refuses m (Goal.openGroups goals) t g f isTaken →
      Stops m ⟨g :: goals, d, t :: ts⟩ ⟨some f, d, if isTaken then ts else t :: ts⟩
  | missing {g : Goal} {goals : List Goal} {d : Draft} {f : Fault} :
      conclude m g d = .error f → Stops m ⟨g :: goals, d, []⟩ ⟨some f, d, []⟩

/-- What comes of reading on from a configuration. -/
def Configuration.outcome (m : Mode) (c : Configuration) : Outcome :=
  read m c.goals c.draft c.rest

/-! ### Steps and readings -/

section Reading

variable {m : Mode} {g : Goal} {goals new : List Goal} {d d' : Draft} {t : Token}

/-- A goal that takes a token leaves the tokens behind it to the goals that it sets. -/
theorem read_take (h : Takes m (Goal.openGroups goals) d t g new d') (ts : List Token) :
    read m (g :: goals) d (t :: ts) = read m (new ++ goals) d' ts := by
  rw [read, feed, react_of_takes h]

/-- A goal that is met without a token leaves it to the goal behind it. -/
theorem read_pass (h : Passes m d t g d') (ts : List Token) :
    read m (g :: goals) d (t :: ts) = read m goals d' (t :: ts) := by
  rw [read, feed, react_of_passes h, read]

/-- A goal that concludes leaves the end of the tokens to the goal behind it. -/
theorem read_conclude (h : conclude m g d = .ok d') :
    read m (g :: goals) d [] = read m goals d' [] := by
  rw [read, finish, h, read]

/-- A goal that refuses a token ends the reading. -/
theorem fault_read_of_refuses {f : Fault} {isTaken : Bool}
    (h : Refuses m (Goal.openGroups goals) t g f isTaken) (d : Draft) (ts : List Token) :
    (read m (g :: goals) d (t :: ts)).fault = some f := by
  rw [read, feed, react_of_refuses h]

theorem ReadingStep.outcome_eq {c c' : Configuration} (h : ReadingStep m c c') :
    c.outcome m = c'.outcome m := by
  cases h with
  | take h => exact read_take h _
  | pass h => exact read_pass h _
  | conclude h => exact read_conclude h

theorem ReadingSteps.outcome_eq {c c' : Configuration} (h : ReadingSteps m c c') :
    c.outcome m = c'.outcome m := by
  induction h with
  | refl => rfl
  | tail _ step ih => exact ih.trans step.outcome_eq

theorem Stops.outcome_eq {c : Configuration} {o : Outcome} (h : Stops m c o) :
    c.outcome m = o := by
  cases h with
  | met => exact read_nil m _ _
  | refused h => rw [Configuration.outcome, read, feed, react_of_refuses h]
  | missing h => rw [Configuration.outcome, read, finish, h]

theorem Stops.draft_eq {c : Configuration} {o : Outcome} (h : Stops m c o) :
    o.draft = c.draft := by
  cases h <;> rfl

/-- Every reading is a sequence of steps to a configuration that stops. -/
theorem exists_stops_of_read (m : Mode) (goals : List Goal) (d : Draft) (ts : List Token) :
    ∃ c, ReadingSteps m ⟨goals, d, ts⟩ c ∧ Stops m c (read m goals d ts) := by
  -- Either a token is used up, or the token stays and a goal is.
  induction ts generalizing goals d with
  | nil =>
    induction goals generalizing d with
    | nil => exact ⟨_, .refl, read_nil m d [] ▸ .met⟩
    | cons g goals ih =>
      cases h : conclude m g d with
      | ok d' =>
        obtain ⟨c, steps, stops⟩ := ih d'
        exact ⟨c, .head (.conclude h) steps, read_conclude h ▸ stops⟩
      | error f =>
        have stops : Stops m ⟨g :: goals, d, []⟩ _ := .missing h
        have eq : read m (g :: goals) d [] = _ := stops.outcome_eq
        exact ⟨_, .refl, eq ▸ stops⟩
  | cons t ts tokens =>
    induction goals generalizing d with
    | nil => exact ⟨_, .refl, read_nil m d (t :: ts) ▸ .met⟩
    | cons g goals ih =>
      cases h : react m (Goal.openGroups goals) g d t with
      | take new d' =>
        have holds : Takes m (Goal.openGroups goals) d t g new d' := holds_of_react_eq h
        obtain ⟨c, steps, stops⟩ := tokens (new ++ goals) d'
        exact ⟨c, .head (.take holds) steps, read_take holds ts ▸ stops⟩
      | pass d' =>
        have holds : Passes m d t g d' := holds_of_react_eq h
        obtain ⟨c, steps, stops⟩ := ih d'
        exact ⟨c, .head (.pass holds) steps, read_pass holds ts ▸ stops⟩
      | refuse f isTaken =>
        have holds : Refuses m (Goal.openGroups goals) t g f isTaken := holds_of_react_eq h
        have stops : Stops m ⟨g :: goals, d, t :: ts⟩ _ := .refused holds
        have eq : read m (g :: goals) d (t :: ts) = _ := stops.outcome_eq
        exact ⟨_, .refl, eq ▸ stops⟩

/-- A reading without a fault is a sequence of steps by which the goals are met. -/
theorem steps_of_read {goals : List Goal} {d : Draft} {ts : List Token}
    (ok : (read m goals d ts).fault = none) :
    ReadingSteps m ⟨goals, d, ts⟩ ⟨[], (read m goals d ts).draft, (read m goals d ts).rest⟩ := by
  obtain ⟨c, steps, stops⟩ := exists_stops_of_read m goals d ts
  generalize read m goals d ts = o at ok stops ⊢
  cases stops with
  | met => exact steps
  | refused => cases ok
  | missing => cases ok

end Reading

/-- **Invariants**: what every step keeps is kept by any number of steps. -/
theorem ReadingSteps.keeps {m : Mode} {P : Configuration → Prop}
    (step : ∀ {c c'}, ReadingStep m c c' → P c → P c') {c c' : Configuration}
    (steps : ReadingSteps m c c') (h : P c) : P c' := by
  induction steps with
  | refl => exact h
  | tail _ last ih => exact step last ih

/-- What every goal keeps that concludes is the same at the end of the tokens. -/
theorem draft_read_end {α : Type} {m : Mode} (f : Draft → α)
    (keeps : ∀ {g d d'}, Concludes m d g d' → f d' = f d) (goals : List Goal) (d : Draft) :
    f (read m goals d []).draft = f d := by
  induction goals generalizing d with
  | nil => rfl
  | cons g goals ih =>
    cases h : conclude m g d with
    | ok d' => rw [read_conclude h, ih, keeps (concludes_of_conclude_eq h)]
    | error fault =>
      have stops : Stops m ⟨g :: goals, d, []⟩ _ := .missing h
      have eq : read m (g :: goals) d [] = _ := stops.outcome_eq
      rw [eq]

/-! ### What steps look at -/

/-- Steps that end in front of a token have taken the tokens before it, and they are the same
whatever stands behind it. -/
theorem ReadingSteps.exists_taken {m : Mode} {c c' : Configuration} {t : Token} {ts : List Token}
    (h : ReadingSteps m c c') (next : c'.rest = t :: ts) :
    ∃ taken, c.rest = taken ++ t :: ts ∧
      ∀ us, ReadingSteps m { c with rest := taken ++ t :: us } { c' with rest := t :: us } := by
  induction h using Relation.ReflTransGen.head_induction_on with
  | refl => exact ⟨[], next, fun us => .refl⟩
  | head step _ ih =>
    obtain ⟨taken, eq, replay⟩ := ih
    cases step with
    | @take g goals new d d' u us react =>
      refine ⟨u :: taken, congrArg (u :: ·) eq, ?_⟩
      intro us
      exact .head (.take react) (replay us)
    | @pass g goals d d' u us react =>
      refine ⟨taken, eq, ?_⟩
      intro us
      -- The token that the goal looked at is the first one taken, or `t` itself.
      cases taken with
      | nil =>
        obtain ⟨rfl, -⟩ := List.cons.inj eq
        exact .head (.pass react) (replay us)
      | cons v taken =>
        obtain ⟨rfl, -⟩ := List.cons.inj eq
        exact .head (.pass react) (replay us)
    | conclude => simp at eq

/-! ### Goals that set themselves again -/

/-- The goals that stand for any number of sections, entries or productions. -/
def Goal.repeats : Goal → Bool
  | .sections | .entries | .productions => true
  | _ => false

theorem Takes.exists_repeated {m : Mode} {depth : Nat} {g : Goal} {new : List Goal} {d d' : Draft}
    {t : Token} (takes : Takes m depth d t g new d') (repeats : g.repeats) :
    ∃ front, new = front ++ [g] := by
  cases takes with
  | comment => exact ⟨[], rfl⟩
  | grammarSection => exact ⟨Rule.grammarSection.goals ++ [.commit], rfl⟩
  | tokenSection => exact ⟨Rule.tokenSection.goals ++ [.commit], rfl⟩
  | productionSection => exact ⟨Rule.productionSection.goals ++ [.commit], rfl⟩
  | entry => exact ⟨[_, _], rfl⟩
  | skipEntry => exact ⟨[], rfl⟩
  | @production g after begins =>
    have same : after = [g] := by
      cases g <;> simp [Goal.repeats, Goal.afterProduction?] at repeats begins
      exact begins.symm
    exact ⟨[_, _, _, _], by rw [same]; rfl⟩
  | nonterminal begins | terminal begins | group begins | action begins =>
    -- The goals that begin with a factor do not stand for any number of something.
    cases g <;> simp [Goal.repeats, Goal.afterFactor?] at repeats begins
  | _ => cases repeats

/-- The goal stays behind all others until it is met: sections at the end of the tokens, entries
and productions there or at a closing brace. -/
def Configuration.EndsIn (g : Goal) (c : Configuration) : Prop :=
  (∃ front, c.goals = front ++ [g]) ∨
    c.goals = [] ∧ ∀ t ∈ c.rest.head?, g ≠ .sections ∧ t.isSymbol sectionCloser

theorem ReadingStep.endsIn {m : Mode} {g : Goal} (repeats : g.repeats) {c c' : Configuration}
    (step : ReadingStep m c c') (h : c.EndsIn g) : c'.EndsIn g := by
  obtain ⟨front, eq⟩ : ∃ front, c.goals = front ++ [g] := by
    refine h.resolve_right ?_
    rintro ⟨none, -⟩
    cases step <;> cases none
  cases step with
  | @take g' goals new d d' t ts takes =>
    cases front with
    | nil =>
      obtain ⟨rfl, rfl⟩ := List.cons.inj eq
      rw [List.append_nil]
      exact .inl (takes.exists_repeated repeats)
    | cons g'' front =>
      obtain ⟨rfl, rfl⟩ := List.cons.inj eq
      exact .inl ⟨new ++ front, (List.append_assoc new front _).symm⟩
  | @pass g' goals d d' t ts passes =>
    cases front with
    | nil =>
      obtain ⟨rfl, rfl⟩ := List.cons.inj eq
      refine .inr ⟨rfl, ?_⟩
      intro u mem
      obtain rfl := Option.some.inj mem
      cases passes with
      | entries closes => exact ⟨Goal.noConfusion, closes⟩
      | productions closes => exact ⟨Goal.noConfusion, closes⟩
      | _ => cases repeats
    | cons g'' front =>
      obtain ⟨rfl, rfl⟩ := List.cons.inj eq
      exact .inl ⟨front, rfl⟩
  | conclude =>
    cases front with
    | nil =>
      obtain ⟨rfl, rfl⟩ := List.cons.inj eq
      exact .inr ⟨rfl, fun t mem => by cases mem⟩
    | cons g'' front =>
      obtain ⟨rfl, rfl⟩ := List.cons.inj eq
      exact .inl ⟨front, rfl⟩

theorem ReadingSteps.endsIn {m : Mode} {g : Goal} (repeats : g.repeats) {c c' : Configuration}
    (steps : ReadingSteps m c c') (h : c.EndsIn g) : c'.EndsIn g :=
  steps.keeps (fun step => step.endsIn repeats) h

/-- What is read without a fault up to such a goal is read up to where that goal is met. -/
theorem head?_rest_read {m : Mode} {g : Goal} (repeats : g.repeats) (front : List Goal)
    {d : Draft} {ts : List Token} (ok : (read m (front ++ [g]) d ts).fault = none) :
    ∀ t ∈ (read m (front ++ [g]) d ts).rest.head?, g ≠ .sections ∧ t.isSymbol sectionCloser := by
  have last := (steps_of_read ok).endsIn repeats (.inl ⟨front, rfl⟩)
  have none : ¬ ∃ front, [] = front ++ [g] := by simp
  exact (last.resolve_left none).2

/-- A description that is read without a fault is read to the end of the tokens. -/
theorem rest_read_sections {m : Mode} {d : Draft} {ts : List Token}
    (h : (read m [.sections] d ts).fault = none) : (read m [.sections] d ts).rest = [] := by
  have last : ∀ t ∈ (read m [.sections] d ts).rest.head?, Goal.sections ≠ .sections ∧ _ :=
    head?_rest_read rfl [] h
  cases rest : (read m [.sections] d ts).rest with
  | nil => rfl
  | cons t us =>
    rw [rest] at last
    exact absurd rfl (last t rfl).1

/-! ### Readers that take on more -/

/-- The second reader is no stricter than the first, and opens every group that the first one
opens. -/
structure Mode.Admits (m m' : Mode) : Prop where
  lenient : m.strict = false → m'.strict = false
  allows : ∀ depth, m.allows depth → m'.allows depth

section Lenient

variable {m m' : Mode} {depth : Nat} {g : Goal} {new : List Goal} {d d' : Draft} {t : Token}

/-- A token is taken because it opens a group, which the reader must allow, or every reader that is
no stricter takes it at any depth. -/
theorem Takes.opens_or_free (takes : Takes m depth d t g new d') :
    (∃ (after : List Goal) (b : Bracket), g.afterFactor? = some after ∧ t.isSymbol b.opener ∧
        m.allows depth ∧
        ∀ (m' : Mode) (depth' : Nat), m'.allows depth' → Takes m' depth' d t g new d') ∨
      ∀ (m' : Mode) (depth' : Nat), (m.strict = false → m'.strict = false) →
        Takes m' depth' d t g new d' := by
  cases takes with
  | @group g after b begins opens allowed =>
    exact .inl ⟨after, b, begins, opens, allowed, fun _ _ => .group begins opens⟩
  | comment kind => exact .inr fun _ _ _ => .comment kind
  | grammarSection h => exact .inr fun _ _ _ => .grammarSection h
  | tokenSection h => exact .inr fun _ _ _ => .tokenSection h
  | productionSection h => exact .inr fun _ _ _ => .productionSection h
  | grammarName kind => exact .inr fun _ _ _ => .grammarName kind
  | separator isSymbol => exact .inr fun _ _ _ => .separator isSymbol
  | entry kind => exact .inr fun _ _ _ => .entry kind
  | skipEntry lenient kind other => exact .inr fun _ _ h => .skipEntry (h lenient) kind other
  | pattern kind => exact .inr fun _ _ _ => .pattern kind
  | skipPattern lenient kind other => exact .inr fun _ _ h => .skipPattern (h lenient) kind other
  | production begins kind => exact .inr fun _ _ _ => .production begins kind
  | nonterminal begins kind => exact .inr fun _ _ _ => .nonterminal begins kind
  | terminal begins kind => exact .inr fun _ _ _ => .terminal begins kind
  | action begins opens => exact .inr fun _ _ _ => .action begins opens
  | bar isBar => exact .inr fun _ _ _ => .bar isBar
  | code kind => exact .inr fun _ _ _ => .code kind

theorem Passes.of_lenient (h : m.strict = false → m'.strict = false) (passes : Passes m d t g d') :
    Passes m' d t g d' := by
  cases passes with
  | separator lenient other => exact .separator (h lenient) other
  | entries closes => exact .entries closes
  | pattern lenient closes => exact .pattern (h lenient) closes
  | productions closes => exact .productions closes
  | factors starts => exact .factors starts
  | alternatives other => exact .alternatives other
  | closing => exact .closing
  | endProduction => exact .endProduction
  | commit => exact .commit

theorem conclude_of_lenient (h : m.strict = false → m'.strict = false)
    (done : conclude m g d = .ok d') : conclude m' g d = .ok d' := by
  cases concludes_of_conclude_eq done with
  | separator lenient => exact conclude_of_concludes (.separator (h lenient))
  | _ => exact done

end Lenient

section Admits

variable {m m' : Mode} (h : m.Admits m')
include h

theorem Takes.of_admits {depth : Nat} {g : Goal} {new : List Goal} {d d' : Draft} {t : Token}
    (takes : Takes m depth d t g new d') : Takes m' depth d t g new d' := by
  rcases takes.opens_or_free with ⟨-, -, -, -, allowed, opens⟩ | free
  · exact opens m' depth (h.allows depth allowed)
  · exact free m' depth h.lenient

theorem ReadingStep.of_admits {c c' : Configuration} (step : ReadingStep m c c') :
    ReadingStep m' c c' := by
  cases step with
  | take takes => exact .take (takes.of_admits h)
  | pass passes => exact .pass (passes.of_lenient h.lenient)
  | conclude done => exact .conclude (conclude_of_lenient h.lenient done)

theorem ReadingSteps.of_admits {c c' : Configuration} (steps : ReadingSteps m c c') :
    ReadingSteps m' c c' :=
  Relation.ReflTransGen.mono (fun _ _ step => ReadingStep.of_admits h step) _ _ steps

/-- A reader that takes on more reads the same where the first one finds no fault. -/
theorem read_eq_of_admits {goals : List Goal} {d : Draft} {ts : List Token}
    (ok : (read m goals d ts).fault = none) : read m' goals d ts = read m goals d ts := by
  have same : read m' goals d ts = _ := ((steps_of_read ok).of_admits h).outcome_eq
  rw [same, Configuration.outcome, read_nil, ← ok]

end Admits

/-! ### The depth limit -/

/-- The second reader is as strict as the first, and opens every group that the first one opens. -/
structure Mode.Extends (m m' : Mode) : Prop where
  strict_eq : m'.strict = m.strict
  allows : ∀ depth, m.allows depth → m'.allows depth

/-- The reader without a depth limit. -/
def Mode.unlimited (m : Mode) : Mode := { m with depthLimit := none }

theorem Mode.extends_unlimited (m : Mode) : m.Extends m.unlimited :=
  ⟨rfl, fun _ _ => rfl⟩

section Extends

variable {m m' : Mode} (h : m.Extends m')
include h

theorem Mode.Extends.admits : m.Admits m' :=
  ⟨h.strict_eq.trans, h.allows⟩

/-- A refusal is shared, unless it is the one that the first reader alone must make. -/
theorem Refuses.of_extends {depth : Nat} {g : Goal} {t : Token} {f : Fault} {isTaken : Bool}
    (refuses : Refuses m depth t g f isTaken) (shallow : f.kind ≠ .nesting) :
    Refuses m' depth t g f isTaken := by
  cases refuses with
  | sections notComment first second third => exact .sections notComment first second third
  | grammarName kind => exact .grammarName kind
  | separator strict other => exact .separator (h.strict_eq.trans strict) other
  | entries strict kind other => exact .entries (h.strict_eq.trans strict) kind other
  | closedPattern strict closes => exact .closedPattern (h.strict_eq.trans strict) closes
  | pattern strict kind other => exact .pattern (h.strict_eq.trans strict) kind other
  | production begins kind open_ => exact .production begins kind open_
  | factor begins ne starts => exact .factor begins ne starts
  | group => exact absurd rfl shallow
  | code kind => exact .code kind

theorem conclude_eq_of_extends (g : Goal) (d : Draft) : conclude m' g d = conclude m g d := by
  cases g <;> simp only [conclude, h.strict_eq]

theorem Stops.of_extends {c : Configuration} {o : Outcome} (stops : Stops m c o)
    (shallow : ∀ f, o.fault = some f → f.kind ≠ .nesting) : Stops m' c o := by
  cases stops with
  | met => exact .met
  | refused refuses => exact .refused (refuses.of_extends h (shallow _ rfl))
  | missing missing => exact .missing ((conclude_eq_of_extends h _ _).trans missing)

/-- A reader that allows deeper groups reads the same, unless the first one gives up. -/
theorem read_eq_of_extends {goals : List Goal} {d : Draft} {ts : List Token}
    (shallow : ∀ f, (read m goals d ts).fault = some f → f.kind ≠ .nesting) :
    read m' goals d ts = read m goals d ts := by
  obtain ⟨c, steps, stops⟩ := exists_stops_of_read m goals d ts
  have same : Configuration.outcome m' ⟨goals, d, ts⟩ = c.outcome m' :=
    (steps.of_admits h.admits).outcome_eq
  exact same.trans (stops.of_extends h shallow).outcome_eq

end Extends

end GrammarNotation
