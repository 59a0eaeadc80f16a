import GrammarNotation.Proofs.Failure.Resuming
import GrammarNotation.Proofs.Failure.WholeSections
import GrammarNotation.Proofs.Reading.Nesting

/-!
# The depth limit

A parser with a depth limit does what the parser without one does, up to the first bracket that
opens a group while as many groups are open as the limit allows. There it gives up, and where there
is no such bracket the limit makes no difference.

## Main definitions

- `Mode.withLimit`, `Settings.withLimit` — the same with another depth limit, or none
- `Configuration.OpensGroup` — a bracket comes next where a factor is read, and so many groups are
  open
- `FirstReaches` — a reading comes to such a configuration for the first time
- `Parser.GivesUpAt` — what there is to say about a parse that gives up

## Main statements

- `ReadingStep.of_extends` — a reader with a limit takes every step that the other one takes, or it
  gives up
- `exists_firstReaches_of_read` — where a reader with a limit gives up
- `exists_nesting_of_opensGroup` — and that it does
- `Parser.parse_withLimit` — the same for parsers

## Design notes

The groups that are open are counted in the body that the parser without a limit has built, not in
its goals, of which the limit speaks.
-/

namespace GrammarNotation

/-- The mode with another depth limit, or none. -/
def Mode.withLimit (m : Mode) (limit : Option Nat) : Mode := { m with depthLimit := limit }

/-- The settings with another depth limit, or none. -/
def Settings.withLimit (s : Settings) (limit : Option Nat) : Settings :=
  { s with mode := s.mode.withLimit limit }

theorem Mode.allows_withLimit {m : Mode} {n depth : Nat} :
    (m.withLimit (some n)).allows depth ↔ depth < n := by
  simp [Mode.allows, Mode.withLimit]

/-- No limit, or a larger one, allows all groups that a limit allows. -/
theorem Mode.extends_withLimit (m : Mode) {n : Nat} {limit : Option Nat}
    (larger : ∀ n' ∈ limit, n ≤ n') : (m.withLimit (some n)).Extends (m.withLimit limit) := by
  refine ⟨rfl, ?_⟩
  intro depth allowed
  rw [Mode.allows_withLimit] at allowed
  cases limit with
  | none => rfl
  | some n' => exact Mode.allows_withLimit.2 (Nat.lt_of_lt_of_le allowed (larger n' rfl))

/-! ### Where a group is opened -/

namespace Configuration

/-- Nothing has been read yet. -/
def start (counter : Nat) (ts : List Token) : Configuration :=
  ⟨[.sections], .resume [] [] counter, ts⟩

/-- **A group is opened inside `n` others**: a factor is to be read, an opening bracket comes next,
and what was built leaves `n` groups open. -/
inductive OpensGroup (n : Nat) : Configuration → Prop
  | intro {g : Goal} {goals after : List Goal} {b : Bracket} {d : Draft} {t : Token}
      {ts : List Token} : g.afterFactor? = some after → t.isSymbol b.opener → d.openGroups = n →
      OpensGroup n ⟨g :: goals, d, t :: ts⟩

theorem isNested_start (counter : Nat) (ts : List Token) : (start counter ts).IsNested counter where
  staged := ⟨rfl, rfl, rfl⟩
  numbered := ⟨Nat.le_refl _, Goal.oneOpen_of_none rfl, rfl, by simp [start, Draft.resume]; rfl⟩
  openGroups_eq := rfl

end Configuration

/-- A reading comes to a configuration of which something holds for the first time. -/
def FirstReaches (m : Mode) (P : Configuration → Prop) (c c' : Configuration) : Prop :=
  Relation.ReflTransGen (fun a b => ReadingStep m a b ∧ ¬ P a) c c' ∧ P c'

theorem FirstReaches.steps {m : Mode} {P : Configuration → Prop} {c c' : Configuration}
    (h : FirstReaches m P c c') : ReadingSteps m c c' :=
  Relation.ReflTransGen.mono (fun _ _ step => step.1) _ _ h.1

section Steps

variable {m m' : Mode} {c c' : Configuration}

/-- A reader does not go on where it stops. -/
theorem Stops.not_step {o : Outcome} (stops : Stops m c o) : ¬ ReadingStep m c c' := by
  intro step
  cases stops with
  | met => cases step
  | refused refuses =>
    cases step with
    | take takes => cases (react_of_refuses refuses).symm.trans (react_of_takes takes)
    | pass passes => cases (react_of_refuses refuses).symm.trans (react_of_passes passes)
  | missing missing =>
    cases step with
    | conclude done => cases missing.symm.trans done

/-- A reader that gives up stops where a factor is read and an opening bracket comes next, which it
does not allow. -/
theorem Stops.nesting_cases {o : Outcome} {f : Fault} (stops : Stops m c o)
    (fault : o.fault = some f) (kind : f.kind = .nesting) :
    ∃ (g : Goal) (goals after : List Goal) (b : Bracket) (d : Draft) (t : Token)
      (ts : List Token), c = ⟨g :: goals, d, t :: ts⟩ ∧ g.afterFactor? = some after ∧
      t.isSymbol b.opener ∧ m.allows (Goal.openGroups goals) = false ∧
      f = .nesting t Phrase.factor ∧ o = ⟨some f, d, ts⟩ := by
  cases stops with
  | met => cases fault
  | missing missing =>
    obtain rfl := Option.some.inj fault
    rw [kind_of_conclude missing] at kind
    cases kind
  | refused refuses =>
    obtain rfl := Option.some.inj fault
    cases refuses with
    | group begins opener refused =>
      exact ⟨_, _, _, _, _, _, _, rfl, begins, opener, refused, rfl, rfl⟩
    | _ => cases kind

/-- A reader that gives up has used up the bracket and nothing behind it. -/
theorem exists_taken_of_nesting {goals : List Goal} {d : Draft} {ts : List Token} {f : Fault}
    (fault : (read m goals d ts).fault = some f) (kind : f.kind = .nesting) :
    ∃ taken t, f = .nesting t Phrase.factor ∧ ts = taken ++ t :: (read m goals d ts).rest := by
  obtain ⟨c, steps, stops⟩ := exists_stops_of_read m goals d ts
  obtain ⟨_, _, _, _, _, t, behind, rfl, -, -, -, rfl, whole⟩ := stops.nesting_cases fault kind
  obtain ⟨taken, eq, -⟩ := steps.exists_taken rfl
  exact ⟨taken, t, rfl, whole ▸ eq⟩

/-- **A reader with a limit takes every step that a reader without takes, or it gives up.** -/
theorem ReadingStep.of_extends (h : m.Extends m') (step : ReadingStep m' c c') :
    ReadingStep m c c' ∨ ∃ t d ts, Stops m c ⟨some (.nesting t Phrase.factor), d, ts⟩ := by
  have lenient : m'.strict = false → m.strict = false := h.strict_eq.symm.trans
  cases step with
  | @take g goals new d d' t ts takes =>
    -- The limit matters to a token that opens a group, and to no other one.
    rcases takes.opens_or_free with ⟨after, b, begins, opens, -, allowed⟩ | free
    · cases depth : m.allows (Goal.openGroups goals) with
      | true => exact .inl (.take (allowed m _ depth))
      | false => exact .inr ⟨t, d, ts, .refused (.group begins opens depth)⟩
    · exact .inl (.take (free m _ lenient))
  | pass passes => exact .inl (.pass (passes.of_lenient lenient))
  | conclude done => exact .inl (.conclude (conclude_of_lenient lenient done))

end Steps

/-! ### Where a reader gives up -/

section Limit

variable {m : Mode} {n first : Nat} {c c' : Configuration}

/-- The production around the group is open, and it has the number that was drawn last. -/
theorem Configuration.OpensGroup.exists_endProduction (opens : c.OpensGroup n)
    (nested : c.IsNested first) :
    ∃ name, .endProduction c.draft.counter name ∈ c.goals ∧
      Tree.numbersAll (c.draft.children ++ c.draft.pending) ++ [(c.draft.counter : Int)] =
        numbersBetween first c.draft.counter := by
  cases opens with
  | intro begins =>
    obtain ⟨name, mem, numbers⟩ := nested.exists_endProduction begins
    exact ⟨name, List.mem_cons_of_mem _ mem, numbers⟩

/-- A reader gives up at a group inside as many others as its limit allows. -/
theorem Configuration.OpensGroup.stops (opens : c.OpensGroup n) (nested : c.IsNested first) :
    ∃ t ts, Stops (m.withLimit (some n)) c ⟨some (.nesting t Phrase.factor), c.draft, ts⟩ := by
  cases opens with
  | @intro g goals after b d t ts begins opener count =>
    have groups : d.openGroups = Goal.openGroups (g :: goals) := nested.openGroups_eq
    rw [Goal.openGroups_cons_of_afterFactor? begins, count] at groups
    have full : n = Goal.openGroups goals := Int.ofNat.inj groups
    have refused : (m.withLimit (some n)).allows (Goal.openGroups goals) = false := by
      rw [← Bool.not_eq_true, Mode.allows_withLimit, full]
      exact Nat.lt_irrefl _
    exact ⟨t, ts, .refused (.group begins opener refused)⟩

/-- And only there, as long as no more groups are open than that. -/
theorem Stops.opensGroup {o : Outcome} {f : Fault} (stops : Stops (m.withLimit (some n)) c o)
    (nested : c.IsNested first) (le : Goal.openGroups c.goals ≤ n) (fault : o.fault = some f)
    (kind : f.kind = .nesting) :
    c.OpensGroup n ∧ ∃ t, f = .nesting t Phrase.factor ∧ c.rest = t :: o.rest := by
  obtain ⟨g, goals, after, b, d, t, ts, rfl, begins, opener, refused, rfl, rfl⟩ :=
    stops.nesting_cases fault kind
  rw [← Bool.not_eq_true, Mode.allows_withLimit, Nat.not_lt] at refused
  have groups : d.openGroups = Goal.openGroups (g :: goals) := nested.openGroups_eq
  have count : Goal.openGroups (g :: goals) = Goal.openGroups goals :=
    Goal.openGroups_cons_of_afterFactor? begins goals
  have full : Goal.openGroups goals = n := Nat.le_antisymm (count ▸ le) refused
  rw [count, full] at groups
  exact ⟨.intro begins opener groups, t, rfl, rfl⟩

/-- The groups that are open stay within the limit. -/
theorem ReadingStep.openGroups_le (step : ReadingStep (m.withLimit (some n)) c c')
    (nested : c.IsNested first) (le : Goal.openGroups c.goals ≤ n) :
    Goal.openGroups c'.goals ≤ n := by
  cases step with
  | @take g goals new d d' t ts takes =>
    obtain ⟨notClosing, cases⟩ := takes.openGroups_cases nested.staged
    have before : Goal.openGroups goals ≤ n := Nat.le_trans (Goal.openGroups_le_cons g goals) le
    show Goal.openGroups (new ++ goals) ≤ n
    rw [Goal.openGroups_append]
    rcases cases with ⟨none, -⟩ | ⟨allowed, one, -⟩
    · rwa [none, Nat.zero_add]
    · rw [one, Nat.add_comm]
      exact Mode.allows_withLimit.1 allowed
  | @pass g goals | @conclude g goals =>
    exact Nat.le_trans (Goal.openGroups_le_cons g goals) le

/-- What a reader with a limit has done, the reader without one does too, and no group was opened
inside as many others as the limit allows. -/
theorem ReadingSteps.unlimited (steps : ReadingSteps (m.withLimit (some n)) c c')
    (nested : c.IsNested first) (le : Goal.openGroups c.goals ≤ n) :
    (c'.IsNested first ∧ Goal.openGroups c'.goals ≤ n) ∧
      Relation.ReflTransGen (fun a b => ReadingStep m.unlimited a b ∧ ¬ a.OpensGroup n) c c' := by
  refine steps.keeps (P := fun c' => (c'.IsNested first ∧ Goal.openGroups c'.goals ≤ n) ∧
    Relation.ReflTransGen (fun a b => ReadingStep m.unlimited a b ∧ ¬ a.OpensGroup n) c c') ?_
    ⟨⟨nested, le⟩, .refl⟩
  rintro a b step ⟨⟨nested, le⟩, before⟩
  -- Where a group is opened inside `n` others, the reader with the limit takes no step.
  have notOpened : ¬ a.OpensGroup n := by
    intro opens
    obtain ⟨t, ts, stops⟩ := opens.stops nested
    exact stops.not_step step
  have free : ReadingStep m.unlimited a b :=
    step.of_admits (m.withLimit (some n)).extends_unlimited.admits
  exact ⟨⟨step.isNested nested, step.openGroups_le nested le⟩, before.tail ⟨free, notOpened⟩⟩

/-- **Where a reader gives up** a group is opened, for the first time, inside as many others as its
limit allows. -/
theorem exists_firstReaches_of_read {counter : Nat} {ts : List Token} {f : Fault}
    (fault : (read (m.withLimit (some n)) [.sections] (.resume [] [] counter) ts).fault = some f)
    (kind : f.kind = .nesting) :
    ∃ c t, FirstReaches m.unlimited (·.OpensGroup n) (.start counter ts) c ∧
      c.IsNested counter ∧ f = .nesting t Phrase.factor ∧
      c.rest = t :: (read (m.withLimit (some n)) [.sections] (.resume [] [] counter) ts).rest ∧
      (read (m.withLimit (some n)) [.sections] (.resume [] [] counter) ts).draft = c.draft := by
  obtain ⟨c, steps, stops⟩ := exists_stops_of_read (m.withLimit (some n)) [.sections]
    (.resume [] [] counter) ts
  obtain ⟨⟨nested, le⟩, before⟩ :=
    ReadingSteps.unlimited steps (Configuration.isNested_start counter ts) (Nat.zero_le n)
  obtain ⟨opens, t, rfl, rest⟩ := stops.opensGroup nested le fault kind
  exact ⟨c, t, ⟨before, opens⟩, nested, rfl, rest, stops.draft_eq⟩

/-- **A reader gives up** if the reader without a limit opens a group inside as many others. -/
theorem exists_nesting_of_opensGroup (steps : ReadingSteps m.unlimited c c')
    (nested : c.IsNested first) (opens : c'.OpensGroup n) :
    ∃ f, (c.outcome (m.withLimit (some n))).fault = some f ∧ f.kind = .nesting := by
  -- From the front, since the reader with the limit may give up on the way already.
  induction steps using Relation.ReflTransGen.head_induction_on with
  | refl =>
    obtain ⟨t, ts, stops⟩ := opens.stops (m := m) nested
    exact ⟨_, congrArg Outcome.fault stops.outcome_eq, rfl⟩
  | head step _ ih =>
    rcases step.of_extends (m.withLimit (some n)).extends_unlimited with step' | ⟨t, d, ts, stops⟩
    · rw [step'.outcome_eq]
      exact ih (step.isNested nested)
    · exact ⟨_, congrArg Outcome.fault stops.outcome_eq, rfl⟩

end Limit

/-! ### The section in which a reader gives up -/

section Section

variable {m : Mode} {c : Nat} {ts : List Token} {f : Fault}

/-- The sections in front of the one with the bracket are complete, and this one is read to the same
fault on its own. -/
theorem exists_section_of_nesting
    (fault : (read m [.sections] (.resume [] [] c) ts).fault = some f) (kind : f.kind = .nesting) :
    ∃ done keyword r inner d t, ts = done ++ keyword :: inner ∧ keyword.Opens r ∧
      read m [.sections] (.resume [] [] c) done = ⟨none, d, []⟩ ∧
      f = .nesting t Phrase.factor ∧
      t :: (read m [.sections] (.resume [] [] c) ts).rest <:+ inner ∧
      (read m r.goals (.resume [] [] d.counter) inner).fault = some f ∧
      (read m [.sections] (.resume [] [] c) ts).draft.children = d.children := by
  obtain ⟨done, keyword, inner, d, split, complete, cause⟩ := exists_last_section fault
  rcases cause with ⟨rfl, -, -⟩ | ⟨r, opens, fault', same⟩
  · cases kind
  obtain ⟨taken, t, rfl, split'⟩ := exists_taken_of_nesting fault' kind
  have alone := (read_of_ready (ready_of_read complete) r.goals inner (m := m)).1
  have children : (read m r.goals d inner).draft.children = d.children :=
    children_read opens.isWithinSection
  rw [← same] at split' children
  exact ⟨done, keyword, r, inner, d, t, split, opens, complete, rfl, ⟨taken, split'.symm⟩,
    alone.trans fault', children⟩

/-- A number that was drawn and is not that of a node was drawn behind the complete sections. -/
theorem counter_lt_of_numbers {d d' : Draft} {number : Int}
    (complete : read m [.sections] (.resume [] [] c) ts = ⟨none, d, []⟩)
    (children : d'.children = d.children)
    (numbers : Tree.numbersAll (d'.children ++ d'.pending) ++ [number] =
      numbersBetween c d'.counter) : d.counter < d'.counter := by
  have start := (Configuration.isNested_start c ts).numbered
  obtain ⟨left, last, closed⟩ := isNumbered_read m start ts
  have read_eq : read m (Configuration.start c ts).goals (Configuration.start c ts).draft ts =
      ⟨none, d, []⟩ := complete
  rw [read_eq] at last closed
  obtain rfl := closed rfl
  have le : c ≤ d.counter := last.le
  have before : Tree.numbersAll (d.children ++ d.pending) ++ Goal.openNumbers [] =
      [] ++ numbersBetween c d.counter := last.numbers
  -- The nodes of the complete sections have all numbers up to `d.counter`, and one more was drawn.
  have count : (Tree.numbersAll (d'.children ++ d'.pending)).length + 1 = d'.counter - c := by
    have lengths := congrArg List.length numbers
    rwa [List.length_append, List.length_singleton, length_numbersBetween] at lengths
  have count' : (Tree.numbersAll d.children).length = d.counter - c := by
    have lengths := congrArg List.length before
    rw [(ready_of_read complete).1] at lengths
    simpa [Goal.openNumbers] using lengths
  rw [children, Tree.numbersAll_append, List.length_append] at count
  omega

end Section

/-! ### Parsers -/

/-- What comes of a reading, the parser being in another mode. -/
def Progress.inMode {α : Type} (m : Mode) (r : Progress α) : Progress α :=
  { r with parser := { r.parser with mode := m } }

namespace Parser

/-- **A parse that gives up at the bracket `t`**, where a parse without a limit opens a group inside
`n` others for the first time. The bracket is the last token taken, the tree is that of the
sections in front of the one with the bracket, and the production that is being read has its
number. -/
structure GivesUpAt (s : Settings) (source : String) (ts : List Token) (c n : Nat)
    (conf : Configuration) (t : Token) (behind : List Token) : Prop where
  first : FirstReaches s.mode.unlimited (·.OpensGroup n) (.start c ts) conf
  rest_eq : conf.rest = t :: behind
  result_eq : ((ofTokens (s.withLimit (some n)) source ts).parse c).result =
    .error (.nesting t Phrase.factor)
  last?_eq : ((ofTokens (s.withLimit (some n)) source ts).parse c).parser.stream.last? = some t
  ahead_eq : ((ofTokens (s.withLimit (some n)) source ts).parse c).parser.stream.ahead = behind
  number : ∃ name, .endProduction ((ofTokens (s.withLimit (some n)) source ts).parse c).counter
    name ∈ conf.goals
  sections : ∃ done keyword r inner, ts = done ++ keyword :: inner ∧ keyword.Opens r ∧
    t :: behind <:+ inner ∧
    let complete := (ofTokens (s.withLimit (some n)) source done).parse c
    complete.result = .ok ((ofTokens (s.withLimit (some n)) source ts).parse c).parser.tree ∧
      complete.counter < ((ofTokens (s.withLimit (some n)) source ts).parse c).counter ∧
      ((ofTokens (s.withLimit (some n)) source inner).readRule r complete.counter).result =
        .error (.nesting t Phrase.factor)

/-- A parse is the same in two modes in which the reading is. -/
theorem parse_inMode {p : Parser} {m : Mode} {c : Nat}
    (same : { p with mode := m }.reading c = p.reading c) :
    { p with mode := m }.parse c = (p.parse c).inMode m := by
  have eq : read m Rule.description.goals (.resume p.children [] c) p.stream.ahead =
      read p.mode Rule.description.goals (.resume p.children [] c) p.stream.ahead := same
  simp only [parse, readRule, Rule.fillsScratch, Bool.false_eq_true, if_false, eq]
  rfl

/-- A parser with a depth limit gives up where a reader does. -/
theorem givesUpAt_of_parse {s : Settings} {source : String} {ts : List Token} {c n : Nat}
    {f : Fault}
    (failed : ((ofTokens (s.withLimit (some n)) source ts).parse c).result = .error f)
    (kind : f.kind = .nesting) :
    ∃ conf t behind, f = .nesting t Phrase.factor ∧ GivesUpAt s source ts c n conf t behind := by
  have fault : (read (s.mode.withLimit (some n)) [.sections] (.resume [] [] c) ts).fault = some f :=
    result_parse_eq_error_iff.1 failed
  obtain ⟨conf, t, first, nested, rfl, rest, draft⟩ := exists_firstReaches_of_read fault kind
  obtain ⟨name, number, numbers⟩ := first.2.exists_endProduction nested
  obtain ⟨done, keyword, r, inner, d, t', split, opens, complete, same, behind, alone, children⟩ :=
    exists_section_of_nesting fault kind
  obtain rfl : t = t' := Option.some.inj (congrArg Fault.token same)
  have alone' : (ofTokens (s.withLimit (some n)) source done).reading c = ⟨none, d, []⟩ := complete
  refine ⟨conf, t, _, rfl, first, rest, failed, ?_, rfl, ⟨name, ?_⟩, done, keyword, r, inner, split,
    opens, behind, ?_, ?_, ?_⟩
  · have found := foundAt_of_read (s := .ofList ts) rfl fault
    cases found with
    | nesting last => exact last
  · have counter : ((ofTokens (s.withLimit (some n)) source ts).parse c).counter =
        conf.draft.counter := congrArg Draft.counter draft
    rwa [counter]
  · rw [result_parse, tree_parse, alone']
    have whole : ((ofTokens (s.withLimit (some n)) source ts).reading c).draft.children =
      d.children := children
    rw [whole]
    rfl
  · rw [counter_parse, counter_parse, alone']
    rw [← draft] at numbers
    exact counter_lt_of_numbers complete children numbers
  · rw [counter_parse, alone']
    exact result_readRule_eq_error alone

/-- **The depth limit is the only effect of nesting.** A parser with the limit `n` gives up exactly
where the parser without a limit opens a group inside `n` others, for the first time. If it does
not give up, the parser without a limit, and every one with a larger limit, does the same. -/
theorem parse_withLimit (s : Settings) (source : String) (ts : List Token) (c n : Nat) :
    let limited := (ofTokens (s.withLimit (some n)) source ts).parse c
    ((∃ f, limited.result = .error f ∧ f.kind = .nesting) ↔
        ∃ conf, ReadingSteps s.mode.unlimited (.start c ts) conf ∧ conf.OpensGroup n) ∧
      (∀ f, limited.result = .error f → f.kind = .nesting →
        ∃ conf t behind, f = .nesting t Phrase.factor ∧ GivesUpAt s source ts c n conf t behind) ∧
      ((∀ f, limited.result = .error f → f.kind ≠ .nesting) →
        ∀ limit : Option Nat, (∀ n' ∈ limit, n ≤ n') →
          (ofTokens (s.withLimit limit) source ts).parse c =
            limited.inMode (s.mode.withLimit limit)) := by
  intro limited
  refine ⟨⟨?_, ?_⟩, ?_, ?_⟩
  · rintro ⟨f, failed, kind⟩
    obtain ⟨conf, t, behind, -, gives⟩ := givesUpAt_of_parse failed kind
    exact ⟨conf, gives.first.steps, gives.first.2⟩
  · rintro ⟨conf, steps, opens⟩
    obtain ⟨f, fault, kind⟩ :=
      exists_nesting_of_opensGroup steps (Configuration.isNested_start c ts) opens
    exact ⟨f, result_parse_eq_error_iff.2 fault, kind⟩
  · intro f failed kind
    exact givesUpAt_of_parse failed kind
  · intro shallow limit larger
    have shallow' : ∀ f, (read (s.mode.withLimit (some n)) [.sections] (.resume [] [] c) ts).fault =
        some f → f.kind ≠ .nesting := by
      intro f fault
      exact shallow f (result_parse_eq_error_iff.2 fault)
    have same : (ofTokens (s.withLimit limit) source ts).reading c =
        (ofTokens (s.withLimit (some n)) source ts).reading c :=
      read_eq_of_extends (s.mode.extends_withLimit larger) shallow'
    exact parse_inMode (p := ofTokens (s.withLimit (some n)) source ts) same

/-- The tokens of `grammar g; productions {A: "a"; S: (a) ((b));}`. -/
def nestedTokens : List Token :=
  [⟨.keyword, "grammar", none⟩, ⟨.identifier, "g", none⟩, .ofSymbol ";",
    ⟨.keyword, "productions", none⟩, .ofSymbol "\x7b", ⟨.identifier, "A", none⟩, .ofSymbol ":",
    ⟨.literal, "a", none⟩, .ofSymbol ";", ⟨.identifier, "S", none⟩, .ofSymbol ":",
    .ofSymbol "(", ⟨.identifier, "a", none⟩, .ofSymbol ")", .ofSymbol "(", .ofSymbol "(",
    ⟨.identifier, "b", none⟩, .ofSymbol ")", .ofSymbol ")", .ofSymbol ";", .ofSymbol "\x7d"]

/-- Groups next to each other do not add up: two may be open, and a parser that allows one gives up
at the last bracket that opens a group. -/
theorem parse_withLimit_nestedTokens :
    (∃ conf, ReadingSteps (Mode.unlimited {}) (.start 4 nestedTokens) conf ∧ conf.OpensGroup 1) ∧
      (∃ conf t behind, Fault.nesting (.ofSymbol "(") Phrase.factor = .nesting t Phrase.factor ∧
        GivesUpAt {} "" nestedTokens 4 1 conf t behind) ∧
      (ofTokens (Settings.withLimit {} none) "" nestedTokens).parse 4 =
        ((ofTokens (Settings.withLimit {} (some 2)) "" nestedTokens).parse 4).inMode
          (Mode.withLimit {} none) := by
  have failed : ((ofTokens (Settings.withLimit {} (some 1)) "" nestedTokens).parse 4).result =
      .error (.nesting (.ofSymbol "(") Phrase.factor) := rfl
  have ok : ((ofTokens (Settings.withLimit {} (some 2)) "" nestedTokens).parse 4).result.isOk := rfl
  obtain ⟨reached, gives, -⟩ := parse_withLimit {} "" nestedTokens 4 1
  obtain ⟨-, -, same⟩ := parse_withLimit {} "" nestedTokens 4 2
  refine ⟨reached.1 ⟨_, failed, rfl⟩, gives _ failed rfl, same ?_ none (fun _ mem => nomatch mem)⟩
  intro f failed'
  rw [failed'] at ok
  cases ok

end Parser

end GrammarNotation
