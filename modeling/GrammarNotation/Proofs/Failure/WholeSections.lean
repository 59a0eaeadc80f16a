import GrammarNotation.Proofs.Reading.Parse
import GrammarNotation.Proofs.Reading.Recasting
import GrammarNotation.Proofs.Reading.Stages

/-!
# A parse that fails keeps whole sections

The nodes of a section join the tree when the section is complete. So where a parse fails, the tree
is that of the sections in front, and what is left of the section at fault is the numbers that its
productions have taken.

## Main definitions

- `productionNames` — the tokens that a reading takes as the names of productions
- `Parser.FailsAt` — what there is to say about a parse that fails in a certain section

## Main statements

- `counter_read` — each production that is begun takes a number
- `exists_last_section` — the section in which a reading fails
- `Parser.exists_failsAt_of_parse` — every parse that fails does so in some section
-/

namespace GrammarNotation

/-! ### Numbers -/

/-- The tokens that a reading takes as the names of productions. -/
def productionNames (m : Mode) : List Goal → Draft → List Token → List Token
  | g :: goals, d, t :: ts =>
    match react m (Goal.openGroups goals) g d t with
    | .take new d' =>
      (if g.afterProduction?.isSome then [t] else []) ++ productionNames m (new ++ goals) d' ts
    | .pass d' => productionNames m goals d' (t :: ts)
    | .refuse _ _ => []
  | _, _, _ => []
termination_by goals _ ts => (ts.length, goals.length)

section Numbers

variable {m : Mode} {depth : Nat} {g : Goal} {goals new : List Goal} {d d' : Draft} {t : Token}

theorem Goal.afterProduction?_of_afterFactor? {after : List Goal}
    (begins : g.afterFactor? = some after) : g.afterProduction? = none := by
  cases g <;> first | rfl | cases begins

theorem Takes.counter_eq (takes : Takes m depth d t g new d') :
    d'.counter = d.counter + if g.afterProduction?.isSome then 1 else 0 := by
  cases takes with
  | production begins => simp [begins, Draft.beginProduction]
  | nonterminal begins | terminal begins | group begins | action begins =>
    rw [Goal.afterProduction?_of_afterFactor? begins]
    rfl
  | _ => rfl

theorem Passes.counter_eq (passes : Passes m d t g d') : d'.counter = d.counter := by
  cases passes <;> rfl

theorem Concludes.counter_eq (concludes : Concludes m d g d') : d'.counter = d.counter := by
  cases concludes <;> rfl

/-- Each production that is begun takes a number, and nothing else does. -/
theorem counter_read (m : Mode) (goals : List Goal) (d : Draft) (ts : List Token) :
    (read m goals d ts).draft.counter =
      d.counter + (productionNames m goals d ts).length := by
  fun_induction productionNames m goals d ts with
  | case1 g goals d t ts new d' h ih =>
    have takes : Takes m (Goal.openGroups goals) d t g new d' := holds_of_react_eq h
    rw [read_take takes, ih, takes.counter_eq, List.length_append]
    split
    · rw [List.length_singleton, Nat.add_assoc]
    · rw [List.length_nil, Nat.add_assoc]
  | case2 g goals d t ts d' h ih =>
    have passes : Passes m d t g d' := holds_of_react_eq h
    rw [read_pass passes, ih, passes.counter_eq]
  | case3 g goals d t ts f isTaken h =>
    have stops : Stops m ⟨g :: goals, d, t :: ts⟩ _ := .refused (holds_of_react_eq h)
    have eq : read m (g :: goals) d (t :: ts) = _ := stops.outcome_eq
    rw [eq]
    rfl
  | case4 goals d ts other =>
    cases goals with
    | nil => rw [read_nil]; rfl
    | cons g goals =>
      cases ts with
      | nil => exact draft_read_end Draft.counter Concludes.counter_eq _ d
      | cons t ts => exact absurd rfl (other g goals t ts rfl)

end Numbers

/-! ### The tree while a section is read -/

section WithinSection

variable {m : Mode} {depth : Nat} {g : Goal} {goals new : List Goal} {d d' : Draft} {t : Token}

theorem Takes.children_eq (takes : Takes m depth d t g new d') : d'.children = d.children := by
  cases takes <;> rfl

theorem Passes.children_eq (passes : Passes m d t g d') (within : g.isWithinSection) :
    d'.children = d.children := by
  cases passes with
  | commit => cases within
  | _ => rfl

theorem Concludes.children_eq (concludes : Concludes m d g d') (within : g.isWithinSection) :
    d'.children = d.children := by
  cases concludes with
  | commit => cases within
  | _ => rfl

theorem ReadingStep.children_eq {c c' : Configuration} (step : ReadingStep m c c')
    (within : ∀ g ∈ c.goals, g.isWithinSection) :
    c'.draft.children = c.draft.children ∧ ∀ g ∈ c'.goals, g.isWithinSection := by
  cases step with
  | take takes =>
    rw [List.forall_mem_cons] at within
    exact ⟨takes.children_eq,
      List.forall_mem_append.2 ⟨takes.isWithinSection within.1, within.2⟩⟩
  | pass passes =>
    rw [List.forall_mem_cons] at within
    exact ⟨passes.children_eq within.1, within.2⟩
  | conclude done =>
    rw [List.forall_mem_cons] at within
    exact ⟨(concludes_of_conclude_eq done).children_eq within.1, within.2⟩

theorem ReadingSteps.children_eq {c c' : Configuration} (steps : ReadingSteps m c c')
    (within : ∀ g ∈ c.goals, g.isWithinSection) :
    c'.draft.children = c.draft.children ∧ ∀ g ∈ c'.goals, g.isWithinSection := by
  refine steps.keeps (P := fun c' => c'.draft.children = c.draft.children ∧
    ∀ g ∈ c'.goals, g.isWithinSection) ?_ ⟨rfl, within⟩
  rintro c₁ c₂ step ⟨children, within⟩
  obtain ⟨children', within'⟩ := step.children_eq within
  exact ⟨children'.trans children, within'⟩

/-- While a section is read the tree stays as it is. -/
theorem children_read {ts : List Token} (within : ∀ g ∈ goals, g.isWithinSection) :
    (read m goals d ts).draft.children = d.children := by
  obtain ⟨c, steps, stops⟩ := exists_stops_of_read m goals d ts
  rw [stops.draft_eq]
  exact (steps.children_eq within).1

end WithinSection

/-! ### The section at fault -/

/-- **The section in which a reading fails**: those in front of it are read in the same way if the
tokens end before its keyword. -/
theorem exists_last_section {m : Mode} {d : Draft} {ts : List Token} {f : Fault}
    (fault : (read m [.sections] d ts).fault = some f) :
    ∃ done t rest d', ts = done ++ t :: rest ∧ read m [.sections] d done = ⟨none, d', []⟩ ∧
      ((f = .unrecognized t Phrase.description ∧ (∀ r, ¬ t.Opens r) ∧
          (read m [.sections] d ts).draft = d') ∨
        ∃ r, t.Opens r ∧ (read m r.goals d' rest).fault = some f ∧
          read m [.sections] d ts = read m r.goals d' rest) := by
  induction n : ts.length using Nat.strongRecOn generalizing d ts with
  | _ n ih =>
    cases ts with
    | nil => cases fault
    | cons t ts =>
      rw [List.length_cons] at n
      by_cases comment : t.kind = .comment
      · have skipped : ∀ us, read m [.sections] d (t :: us) = read m [.sections] d us :=
          fun us => read_take (.comment comment) us
        rw [skipped] at fault ⊢
        obtain ⟨done, t', rest, d', rfl, complete, cause⟩ := ih ts.length (by omega) fault rfl
        exact ⟨t :: done, t', rest, d', rfl, (skipped done).trans complete, cause⟩
      by_cases opens : ∃ r, t.Opens r
      · obtain ⟨r, opens⟩ := opens
        cases inner : (read m r.goals d ts).fault with
        | some f' =>
          -- The first section is at fault.
          rw [read_opens opens, Outcome.andThen_of_some inner] at fault ⊢
          exact ⟨[], t, ts, d, rfl, rfl, .inr ⟨r, opens, fault, rfl⟩⟩
        | none =>
          rw [read_opens opens, Outcome.andThen_of_none inner] at fault ⊢
          obtain ⟨taken, split, cut⟩ := exists_read_section opens inner
          have shorter := (rest_read_suffix m r.goals d ts).length_le
          obtain ⟨done, t', rest, d', eq, complete, cause⟩ := ih _ (by omega) fault rfl
          refine ⟨t :: (taken ++ done), t', rest, d', ?_, ?_, cause⟩
          · rw [split, eq, List.cons_append, List.append_assoc]
          · have front := cut done (eq ▸ List.prefix_append done _)
            rw [read_opens opens, front, Outcome.andThen_of_none rfl]
            exact complete
      · have none : ∀ r, ¬ t.Opens r := fun r h => opens ⟨r, h⟩
        have stops : Stops m ⟨[.sections], d, t :: ts⟩ _ :=
          .refused (refuses_of_not_opens comment none)
        have eq : read m [.sections] d (t :: ts) = _ := stops.outcome_eq
        rw [eq] at fault ⊢
        obtain rfl := Option.some.inj fault
        exact ⟨[], t, ts, d, rfl, rfl, .inl ⟨rfl, none, rfl⟩⟩

/-- Between sections nothing is in the making, and what was built before plays no part. -/
theorem Draft.eq_onto_resume {d : Draft} (pending : d.pending = []) (body : d.body = []) :
    d = (Recasting.onto d.children d.notices).draft (.resume [] [] d.counter) := by
  obtain ⟨children, _, _, counter, notices⟩ := d
  subst pending body
  simp [Recasting.onto, resume]

/-- Behind complete sections nothing is in the making. -/
theorem ready_of_read {m : Mode} {c : Nat} {ts : List Token} {d : Draft}
    (complete : read m [.sections] (.resume [] [] c) ts = ⟨none, d, []⟩) :
    d.pending = [] ∧ d.body = [] := by
  have ok := congrArg Outcome.fault complete
  have pending := pending_read_sections (d := .resume [] [] c) rfl ok
  have staged : Goal.Staged [.sections] (Draft.resume [] [] c).body := ⟨rfl, rfl, rfl⟩
  have body := body_read staged ok
  rw [complete] at pending body
  exact ⟨pending, body⟩

/-- A section is read behind complete sections as it is read on its own. -/
theorem read_of_ready {m : Mode} {d : Draft} (ready : d.pending = [] ∧ d.body = [])
    (goals : List Goal) (ts : List Token) :
    (read m goals (.resume [] [] d.counter) ts).fault = (read m goals d ts).fault ∧
      (read m goals (.resume [] [] d.counter) ts).draft.counter =
        (read m goals d ts).draft.counter := by
  have fresh := read_onto d.children d.notices goals (.resume [] [] d.counter) ts (m := m)
  rw [← Draft.eq_onto_resume ready.1 ready.2] at fresh
  exact ⟨(congrArg Outcome.fault fresh).symm,
    (congrArg (fun o : Outcome => o.draft.counter) fresh).symm⟩

namespace Parser

theorem result_readRule_eq_error {s : Settings} {source : String} {ts : List Token} {r : Rule}
    {c : Nat} {f : Fault} (fault : (read s.mode r.goals (.resume [] [] c) ts).fault = some f) :
    ((ofTokens s source ts).readRule r c).result = .error f := by
  -- A new parser has read no expressions on their own, so its scratch body is empty.
  have body : (if r.fillsScratch then (ofTokens s source ts).scratch else []) = [] := ite_self _
  rw [readRule, body]
  show (read s.mode r.goals (.resume [] [] c) ts).fault.elim (Except.ok _) Except.error = _
  rw [fault]
  rfl

/-- **A parse that fails in the section with the keyword `t`**, which is the token with index `k`:
the tokens in front are parsed to the tree that is left. Either `t` is no keyword of a section, or
the tokens behind it have the fault as a section of its kind; then the numbers that are missing
from the tree are those of the productions that were begun in this section. -/
structure FailsAt (s : Settings) (source : String) (ts : List Token) (c : Nat) (f : Fault)
    (k : Nat) (t : Token) : Prop where
  getElem?_eq : ts[k]? = some t
  result_take : ((ofTokens s source (ts.take k)).parse c).result =
    .ok ((ofTokens s source ts).parse c).parser.tree
  cause :
    let counter := ((ofTokens s source (ts.take k)).parse c).counter
    (f = .unrecognized t Phrase.description ∧ (∀ r, ¬ t.Opens r) ∧
        ((ofTokens s source ts).parse c).counter = counter) ∨
      ∃ r, t.Opens r ∧
        ((ofTokens s source (ts.drop (k + 1))).readRule r counter).result = .error f ∧
        ((ofTokens s source ts).parse c).counter = counter +
          (productionNames s.mode r.goals (.resume [] [] counter) (ts.drop (k + 1))).length

/-- **A parse that fails keeps whole sections only.** -/
theorem exists_failsAt_of_parse {s : Settings} {source : String} {ts : List Token} {c : Nat}
    {f : Fault} (failed : ((ofTokens s source ts).parse c).result = .error f) :
    ∃ k t, k < ts.length ∧ FailsAt s source ts c f k t := by
  have fault : (read s.mode [.sections] (.resume [] [] c) ts).fault = some f :=
    result_parse_eq_error_iff.1 failed
  obtain ⟨done, t, rest, d, split, complete, cause⟩ := exists_last_section fault
  have getElem?_eq : ts[done.length]? = some t := by simp [split]
  have take : ts.take done.length = done := by simp [split]
  have drop : ts.drop (done.length + 1) = rest := by
    rw [split, List.drop_append]
    simp
  have alone : (ofTokens s source done).reading c = ⟨none, d, []⟩ := complete
  have result : ∀ (whole : Outcome), whole.draft.children = d.children →
      ((ofTokens s source done).parse c).result = .ok (.node .root whole.draft.children) := by
    intro whole children
    rw [result_parse, alone, children]
    rfl
  refine ⟨done.length, t, by simp [split], getElem?_eq, ?_, ?_⟩
  · rw [take, tree_parse]
    apply result
    rcases cause with ⟨-, -, eq⟩ | ⟨r, opens, -, eq⟩
    · exact congrArg Draft.children eq
    · exact (congrArg (·.draft.children) eq).trans (children_read opens.isWithinSection)
  · rw [take, drop, counter_parse, counter_parse, alone]
    refine cause.imp ?_ ?_
    · rintro ⟨rfl, none, eq⟩
      exact ⟨rfl, none, congrArg Draft.counter eq⟩
    · rintro ⟨r, opens, inner, eq⟩
      -- The section is read as by a parser that has built nothing yet.
      obtain ⟨fault', counter'⟩ := read_of_ready (ready_of_read complete) r.goals rest (m := s.mode)
      have counter := counter_read s.mode r.goals (.resume [] [] d.counter) rest
      refine ⟨r, opens, ?_, ?_⟩
      · exact result_readRule_eq_error (fault'.trans inner)
      · exact (congrArg (·.draft.counter) eq).trans (counter'.symm.trans counter)

/-- The tokens of `grammar g; productions {A: "a"; B: ]`, where a factor is missing. -/
def brokenTokens : List Token :=
  [⟨.keyword, "grammar", none⟩, ⟨.identifier, "g", none⟩, .ofSymbol ";",
    ⟨.keyword, "productions", none⟩, .ofSymbol "\x7b", ⟨.identifier, "A", none⟩, .ofSymbol ":",
    ⟨.literal, "a", none⟩, .ofSymbol ";", ⟨.identifier, "B", none⟩, .ofSymbol ":", .ofSymbol "]"]

theorem exists_failsAt_brokenTokens :
    ∃ k t, k < brokenTokens.length ∧
      FailsAt {} "" brokenTokens 4 (.unrecognized (.ofSymbol "]") Phrase.factor) k t := by
  have failed : ((ofTokens {} "" brokenTokens).parse 4).result =
      .error (.unrecognized (.ofSymbol "]") Phrase.factor) := rfl
  exact exists_failsAt_of_parse failed

end Parser

end GrammarNotation
