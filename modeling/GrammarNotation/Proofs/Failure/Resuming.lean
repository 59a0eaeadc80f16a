import GrammarNotation.Proofs.Reading.Parse
import GrammarNotation.Proofs.Reading.Stages

/-!
# Parsing on after a fault

A parser that came to a fault can be asked again, and goes on from the token at which it stopped.
Each such parse takes at least one token more and leaves the tree so far as it is, so that the
parser is through after as many faults as there are tokens left, or fewer.

## Main definitions

- `EntryBegun` — how far an entry of a token section is, by what was taken last
- `Fault.FoundAt` — where a fault of each kind leaves the tokens
- `Parser.Resumes` — what a parse does that goes on from a parser
- `Parser.afterParses` — a parser after a number of parses

## Main statements

- `rest_read_suffix_of_cons` — a description that is not at its end loses at least one token
- `foundAt_of_read` — a fault is found where its kind says
- `Parser.resumes_parse` — so every parse goes on as it should
- `Parser.resumes_afterParses` — and in the end the description is read through
-/

namespace GrammarNotation

/-! ### Entries of a token section -/

/-- **How far an entry is**, by what was taken last, latest first: its name, or its name and a
colon, or there is no entry that waits for its pattern. -/
inductive EntryBegun : List Goal → List Token → Prop
  | none {goals : List Goal} {behind : List Token} :
      Goal.awaited? goals = none → EntryBegun goals behind
  | named {goals : List Goal} {behind : List Token} {name : Token} : name.kind = .identifier →
      EntryBegun (.separator ":" :: .pattern name.text :: goals) (name :: behind)
  | separated {goals : List Goal} {behind : List Token} {name colon : Token} :
      name.kind = .identifier → colon.isSymbol ":" →
      EntryBegun (.pattern name.text :: goals) (colon :: name :: behind)

section EntryBegun

variable {m : Mode} {depth : Nat} {g : Goal} {goals new : List Goal} {d d' : Draft} {t : Token}
  {ts behind : List Token}

theorem Takes.entryBegun (takes : Takes m depth d t g new d')
    (staged : Goal.Staged (g :: goals) d.body) (h : EntryBegun (g :: goals) behind) :
    EntryBegun (new ++ goals) (t :: behind) := by
  cases h with
  | none none =>
    cases takes with
    | entry kind => exact .named kind
    | pattern | skipPattern => cases none
    | separator => exact .none none
    | nonterminal begins | terminal begins => exact .none (staged.after_factor begins).1
    | grammarName | code => exact .none staged.1
    | _ => exact .none rfl
  | named kind =>
    obtain ⟨isColon, rfl, -⟩ := takes.separator_eq
    exact .separated kind isColon
  | separated =>
    obtain rfl := takes.pattern_eq
    exact .none staged.1

theorem Passes.entryBegun (passes : Passes m d t g d') (strict : m.strict)
    (staged : Goal.Staged (g :: goals) d.body) : EntryBegun goals behind := by
  cases passes with
  | separator lenient => simp [strict] at lenient
  | _ => exact .none staged.1

theorem Concludes.entryBegun (concludes : Concludes m d g d') (strict : m.strict)
    (staged : Goal.Staged (g :: goals) d.body) : EntryBegun goals behind := by
  cases concludes with
  | separator lenient => simp [strict] at lenient
  | _ => exact .none staged.1

/-- A strict reader has taken what its goals say of an entry. -/
theorem ReadingStep.entryBegun {c c' : Configuration} (step : ReadingStep m c c')
    (staged : Goal.Staged c.goals c.draft.body)
    (h : ∃ behind, ts = behind.reverse ++ c.rest ∧ (m.strict → EntryBegun c.goals behind)) :
    ∃ behind, ts = behind.reverse ++ c'.rest ∧ (m.strict → EntryBegun c'.goals behind) := by
  obtain ⟨behind, rfl, begun⟩ := h
  cases step with
  | @take g goals new d d' t us takes =>
    exact ⟨t :: behind, by simp, fun strict => takes.entryBegun staged (begun strict)⟩
  | pass passes => exact ⟨behind, rfl, fun strict => passes.entryBegun strict staged⟩
  | conclude done =>
    exact ⟨behind, rfl, fun strict =>
      (concludes_of_conclude_eq done).entryBegun strict staged⟩

theorem ReadingSteps.entryBegun {c : Configuration} (body : d.body = [])
    (steps : ReadingSteps m ⟨[.sections], d, ts⟩ c) :
    ∃ behind, ts = behind.reverse ++ c.rest ∧ (m.strict → EntryBegun c.goals behind) := by
  have first : Goal.Staged [.sections] d.body := by
    simp [Goal.Staged, Goal.awaited?, Goal.fillsBody, body]
  have both := steps.keeps (P := fun c => Goal.Staged c.goals c.draft.body ∧
      ∃ behind, ts = behind.reverse ++ c.rest ∧ (m.strict → EntryBegun c.goals behind))
    (fun step h => ⟨step.staged h.1, step.entryBegun h.1 h.2⟩)
    ⟨first, [], rfl, fun _ => .none rfl⟩
  exact both.2

end EntryBegun

/-! ### Where faults are found -/

/-- **Where a fault leaves the tokens**: at their end, in front of the token that it is about, or
behind it. -/
inductive Fault.FoundAt (m : Mode) (s : TokenStream) : Fault → Prop
  | endOfInput {phrase : String} : s.ahead = [] → FoundAt m s (.endOfInput phrase)
  | wrongToken {t : Token} {symbol : String} : m.strict → s.ahead.head? = some t →
      t.isSymbol symbol = false → FoundAt m s (.wrongToken t symbol)
  | nesting {t : Token} {phrase : String} : s.last? = some t → FoundAt m s (.nesting t phrase)
  | unrecognized {t : Token} {phrase : String} : s.last? = some t →
      (phrase = Phrase.token → t.isSymbol sectionCloser = false) →
      FoundAt m s (.unrecognized t phrase)
  /-- An entry is cut off behind its name and the colon. -/
  | cutOff {t name colon : Token} {behind : List Token} : m.strict →
      s.behind = colon :: name :: behind → name.kind = .identifier → colon.isSymbol ":" →
      s.ahead.head? = some t → t.isSymbol sectionCloser →
      FoundAt m s (.unrecognized t Phrase.token)

section FoundAt

variable {m : Mode} {depth : Nat} {g : Goal} {goals : List Goal} {d : Draft} {t : Token} {f : Fault}
  {s : TokenStream}

/-- A token that was refused after it was used up is the one that was taken last. -/
theorem Refuses.foundAt_of_taken (refuses : Refuses m depth t g f true) (last : s.last? = some t) :
    f.FoundAt m s := by
  cases refuses with
  | entries _ _ other | pattern _ _ other => exact .unrecognized last fun _ => other
  | group => exact .nesting last
  | _ => exact .unrecognized last fun eq => absurd eq (by decide)

/-- A token that was refused without being used up is the next one. -/
theorem Refuses.foundAt_of_left (refuses : Refuses m depth t g f false)
    (next : s.ahead.head? = some t) {front behind : List Token} (split : s.behind = front ++ behind)
    (begun : m.strict → EntryBegun (g :: goals) front) : f.FoundAt m s := by
  cases refuses with
  | separator strict other => exact .wrongToken strict next other
  | closedPattern strict closes =>
    cases begun strict with
    | none none => cases none
    | separated isName isColon => exact .cutOff strict split isName isColon next closes

/-- **A fault is found where its kind says.** -/
theorem foundAt_of_read (body : d.body = [])
    (fault : (read m [.sections] d s.ahead).fault = some f) :
    f.FoundAt m (s.advanceTo (read m [.sections] d s.ahead).rest) := by
  obtain ⟨c, steps, stops⟩ := exists_stops_of_read m [.sections] d s.ahead
  obtain ⟨behind, split, begun⟩ := steps.entryBegun body
  generalize read m [.sections] d s.ahead = o at fault stops ⊢
  cases stops with
  | met => cases fault
  | missing missing =>
    obtain rfl := Option.some.inj fault
    obtain ⟨phrase, rfl⟩ := exists_endOfInput_of_conclude missing
    exact .endOfInput rfl
  | @refused g goals d' t us f' isTaken refuses =>
    obtain rfl := Option.some.inj fault
    cases isTaken with
    | true =>
      have taken : s.ahead = (t :: behind).reverse ++ us := by simpa using split
      have last : (s.advanceTo us).last? = some t := by
        rw [TokenStream.last?, TokenStream.behind_advanceTo taken, List.reverse_reverse]
        rfl
      exact refuses.foundAt_of_taken last
    | false =>
      have taken : (s.advanceTo (t :: us)).behind = behind ++ s.behind := by
        rw [TokenStream.behind_advanceTo split, List.reverse_reverse]
      exact refuses.foundAt_of_left rfl taken begun

end FoundAt

/-! ### Progress -/

section Progress

variable (m : Mode) (d : Draft)

/-- Where a description goes on, at least one token is used up. -/
theorem rest_read_suffix_of_cons (t : Token) (ts : List Token) :
    (read m [.sections] d (t :: ts)).rest <:+ ts := by
  cases reaction : react m (Goal.openGroups []) .sections d t with
  | take new d' =>
    have takes : Takes m (Goal.openGroups []) d t .sections new d' := holds_of_react_eq reaction
    rw [read_take takes]
    exact rest_read_suffix m (new ++ []) d' ts
  | pass d' =>
    have passes : Passes m d t .sections d' := holds_of_react_eq reaction
    cases passes
  | refuse f isTaken =>
    have refuses : Refuses m (Goal.openGroups []) t .sections f isTaken :=
      holds_of_react_eq reaction
    obtain ⟨-, rfl⟩ := refuses.sections_eq
    have stops : Stops m ⟨[.sections], d, t :: ts⟩ _ := .refused refuses
    have eq : read m [.sections] d (t :: ts) = _ := stops.outcome_eq
    rw [eq]
    exact List.suffix_refl ts

/-- A fault is not found without a token being used up. -/
theorem length_rest_lt_of_fault {ts : List Token} {f : Fault}
    (fault : (read m [.sections] d ts).fault = some f) :
    (read m [.sections] d ts).rest.length < ts.length := by
  cases ts with
  | nil => cases fault
  | cons t ts => exact Nat.lt_succ_of_le (rest_read_suffix_of_cons m d t ts).length_le

end Progress

namespace Parser

/-- **A parse goes on from a parser**: it builds on the tree, and it takes all tokens that are
left or comes to a fault, with at least one token taken. -/
structure Resumes (p : Parser) (r : Progress Tree) : Prop where
  toList_eq : r.parser.stream.toList = p.stream.toList
  children_prefix : p.tree.children <+: r.parser.tree.children
  taken_of_ok : r.result.isOk → r.parser.stream.taken = p.stream.toList.length
  taken_lt : ∀ f, r.result = .error f → p.stream.taken < r.parser.stream.taken
  taken_le : ∀ f, r.result = .error f → r.parser.stream.taken ≤ p.stream.toList.length
  foundAt : ∀ f, r.result = .error f → f.FoundAt p.mode r.parser.stream

/-- The parser after a number of parses, the counter being set anew before each of them. -/
def afterParses (p : Parser) (counters : Nat → Nat) : Nat → Parser
  | 0 => p
  | k + 1 => ((p.afterParses counters k).parse (counters k)).parser

variable (p : Parser)

/-- Every parse goes on from where the parser stands. -/
theorem resumes_parse (c : Nat) : p.Resumes (p.parse c) := by
  obtain ⟨front, split⟩ := rest_read_suffix p.mode [.sections] (.resume p.children [] c)
    p.stream.ahead
  have toList_eq : (p.parse c).parser.stream.toList = p.stream.toList :=
    TokenStream.toList_advanceTo ⟨front, split⟩
  refine ⟨toList_eq, ?_, ?_, ?_, ?_, ?_⟩
  · exact (growsTo_read p.mode [.sections] (.resume p.children [] c) p.stream.ahead).children
  · intro ok
    have rest : (p.reading c).rest = [] := rest_read_sections (isOk_result_parse_iff.1 ok)
    have ahead : (p.parse c).parser.stream.ahead = [] := rest
    rw [← toList_eq, TokenStream.toList, ahead, TokenStream.taken, List.append_nil,
      List.length_reverse]
  · intro f failed
    have fewer : (p.reading c).rest.length < p.stream.ahead.length :=
      length_rest_lt_of_fault _ _ (result_parse_eq_error_iff.1 failed)
    rw [taken_parse]
    omega
  · intro f failed
    rw [← toList_eq]
    exact TokenStream.taken_le_length _
  · intro f failed
    exact foundAt_of_read rfl (result_parse_eq_error_iff.1 failed)

/-- The name and the colon of an entry are taken, and the brace that cuts it off is left. -/
example : ((ofTokens { mode := { strict := true } } "" [⟨.keyword, "tokens", none⟩,
    .ofSymbol "\x7b", ⟨.identifier, "a", none⟩, .ofSymbol ":", .ofSymbol "\x7d"]).parse
      0).parser.stream.ahead = [.ofSymbol "\x7d"] := rfl

/-! ### Many parses -/

variable (counters : Nat → Nat)

theorem toList_afterParses (k : Nat) :
    (p.afterParses counters k).stream.toList = p.stream.toList := by
  induction k with
  | zero => rfl
  | succ k ih => exact ((p.afterParses counters k).resumes_parse (counters k)).toList_eq.trans ih

theorem source_afterParses (k : Nat) : (p.afterParses counters k).source = p.source := by
  induction k with
  | zero => rfl
  | succ k ih => exact ih

theorem mode_afterParses (k : Nat) : (p.afterParses counters k).mode = p.mode := by
  induction k with
  | zero => rfl
  | succ k ih => exact ih

/-- The parses behind the first one are those of the parser that it leaves. -/
theorem afterParses_succ (k : Nat) : p.afterParses counters (k + 1) =
    (p.parse (counters 0)).parser.afterParses (fun i => counters (i + 1)) k := by
  induction k with
  | zero => rfl
  | succ k ih => rw [afterParses, ih, afterParses]

/-- **The description is read through**: some parse succeeds, and all in front of it, which are no
more than there are tokens left, come to a fault. -/
def IsReadThrough : Prop :=
  ∃ n ≤ p.stream.ahead.length,
    (∀ i < n, ∃ f, ((p.afterParses counters i).parse (counters i)).result = .error f) ∧
      ((p.afterParses counters n).parse (counters n)).result.isOk

theorem isReadThrough : p.IsReadThrough counters := by
  -- A parse that fails leaves fewer tokens than it found.
  induction left : p.stream.ahead.length using Nat.strongRecOn generalizing p counters with
  | ind left ih =>
    subst left
    cases result : (p.parse (counters 0)).result with
    | ok tree =>
      have ok : (p.parse (counters 0)).result.isOk := by rw [result]; rfl
      exact ⟨0, Nat.zero_le _, fun i lt => absurd lt (Nat.not_lt_zero i), ok⟩
    | error f =>
      have fewer : (p.parse (counters 0)).parser.stream.ahead.length < p.stream.ahead.length :=
        length_rest_lt_of_fault _ _ (result_parse_eq_error_iff.1 result)
      obtain ⟨n, le, failed, ok⟩ :=
        ih _ fewer (p.parse (counters 0)).parser (fun i => counters (i + 1)) rfl
      refine ⟨n + 1, Nat.le_trans (Nat.succ_le_succ le) fewer, ?_, ?_⟩
      · intro i lt
        cases i with
        | zero => exact ⟨f, result⟩
        | succ i =>
          rw [afterParses_succ]
          exact failed i (Nat.lt_of_succ_lt_succ lt)
      · rw [afterParses_succ]
        exact ok

/-- **Parsing on after faults makes progress and keeps the tree**: whatever was parsed before, the
next parse goes on from there, and in the end the description is read through. -/
theorem resumes_afterParses (s : Settings) (source : String) (ts : List Token)
    (counters : Nat → Nat) (k : Nat) :
    ((ofTokens s source ts).afterParses counters k).mode = s.mode ∧
      ((ofTokens s source ts).afterParses counters k).stream.toList = ts ∧
      (∀ c, ((ofTokens s source ts).afterParses counters k).Resumes
        (((ofTokens s source ts).afterParses counters k).parse c)) ∧
      ∀ more, ((ofTokens s source ts).afterParses counters k).IsReadThrough more := by
  refine ⟨mode_afterParses _ counters k, ?_, resumes_parse _, isReadThrough _⟩
  rw [toList_afterParses]
  exact TokenStream.toList_ofList ts

end Parser

end GrammarNotation
