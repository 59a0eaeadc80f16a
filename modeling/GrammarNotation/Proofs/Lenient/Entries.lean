import GrammarNotation.Proofs.Lenient.Rounds
import GrammarNotation.Proofs.Reading.Parse
import Mathlib.Data.List.TakeWhile

/-!
# Where a token section ends

A lenient reader passes over malformed entries, but no round of the entries takes a closing brace,
and the rounds go on until there is one. So however malformed its entries are, a token section ends
behind the first closing brace, or with the tokens.

## Main definitions

- `EntryRound`, `entryRounds` — the rounds in which the entries of a section are read
- `LacksPattern` — the tokens are the beginning of an entry
- `RoundAdds`, `InRounds` — what a round adds, and what rounds in a row come to
- `Parser.EndsSection` — where and how a token section ends

## Main statements

- `round_adds_or_lacks` — what a round comes to
- `read_entries_inRounds` — the entries are read in rounds
- `InRounds.rest_eq` — the rounds take the tokens in front of the first closing brace
- `Parser.lenient_tokenSection_ends` — a token section ends behind the first closing brace
-/

namespace GrammarNotation

/-! ### Rounds -/

/-- A round of the entries: what was built and what stood ahead when it began, and what came of
it. -/
structure EntryRound where
  draft : Draft
  ahead : List Token
  outcome : Outcome

namespace EntryRound

/-- The nodes that a round adds to its section. -/
def nodes (r : EntryRound) : List Tree :=
  r.outcome.draft.pending.drop r.draft.pending.length

/-- What is noted in a round. -/
def notices (r : EntryRound) : List Notice :=
  r.outcome.draft.notices.drop r.draft.notices.length

end EntryRound

/-- **The rounds in which the entries of a token section are read**: where an entry may begin a
token is taken, and what it sets in front of further entries is read. The next round begins where
this one ended, unless it ended in a fault. -/
def entryRounds (m : Mode) (d : Draft) : List Token → List EntryRound
  | [] => []
  | t :: ts =>
    match react m 0 .entries d t with
    | .take new d' =>
      let o := read m new.dropLast d' ts
      ⟨d, t :: ts, o⟩ :: if o.fault.isNone then entryRounds m o.draft o.rest else []
    | .pass _ | .refuse _ _ => []
termination_by ts => ts.length
decreasing_by
  have shorter := (rest_read_suffix m new.dropLast d' ts).length_le
  rw [List.length_cons]
  omega

/-- The tokens are the name of an entry, with a colon behind it or without, and nothing else. -/
inductive LacksPattern : List Token → Prop
  | named {name : Token} : name.kind = .identifier → LacksPattern [name]
  | separated {name colon : Token} : name.kind = .identifier → colon.isSymbol ":" →
      LacksPattern [name, colon]

/-- **What a round adds**: an entry or a warning, and it takes no closing brace. -/
inductive RoundAdds (d : Draft) : List Token → Draft → List Token → Prop
  | entry {front rest : List Token} {name pattern : String} :
      (∀ u ∈ front, u.isSymbol sectionCloser = false) →
      RoundAdds d (front ++ rest) (d.add (.leaf (.token name pattern))) rest
  | warning {front rest : List Token} {t : Token} :
      (∀ u ∈ front, u.isSymbol sectionCloser = false) →
      RoundAdds d (front ++ rest) (d.note (.entrySkipped t)) rest

/-- **What rounds in a row come to**: there is nothing to read any more, or the tokens end behind
the beginning of an entry, or a round adds something and others follow. -/
inductive InRounds : Draft → List Token → List EntryRound → Outcome → Prop
  | ended {d : Draft} {ts : List Token} : (∀ u ∈ ts.head?, u.isSymbol sectionCloser) →
      InRounds d ts [] ⟨none, d, ts⟩
  | missing {d : Draft} {ts : List Token} : LacksPattern ts →
      InRounds d ts [⟨d, ts, ⟨some (.endOfInput Phrase.token), d, []⟩⟩]
        ⟨some (.endOfInput Phrase.token), d, []⟩
  | more {d d' : Draft} {ts rest : List Token} {rounds : List EntryRound} {o : Outcome} :
      ¬ LacksPattern ts → RoundAdds d ts d' rest → InRounds d' rest rounds o →
      InRounds d ts (⟨d, ts, ⟨none, d', rest⟩⟩ :: rounds) o

section Rounds

variable {m : Mode} {new : List Goal} {d d' : Draft} {t : Token} {ts begun : List Token}

theorem LacksPattern.isSymbol_eq (h : LacksPattern begun) :
    ∀ u ∈ begun, u.isSymbol sectionCloser = false := by
  cases h with
  | named kind =>
    exact List.forall_mem_singleton.2 (Token.isSymbol_eq_false_of_kind_eq kind (by decide))
  | separated kind isColon =>
    rw [List.forall_mem_cons, List.forall_mem_singleton]
    exact ⟨Token.isSymbol_eq_false_of_kind_eq kind (by decide),
      Token.isSymbol_eq_of_isSymbol isColon⟩

/-- What the pattern of an entry comes to, behind the beginning of the entry. -/
theorem pattern_adds_or_lacks (lenient : m.strict = false) (begins : LacksPattern begun)
    (name : String) (d : Draft) (ts : List Token) :
    (∃ d' rest, read m [.pattern name] d ts = ⟨none, d', rest⟩ ∧ ts ≠ [] ∧
        RoundAdds d (begun ++ ts) d' rest) ∨
      ts = [] ∧ read m [.pattern name] d ts = ⟨some (.endOfInput Phrase.token), d, []⟩ := by
  have front := begins.isSymbol_eq
  cases ts with
  | nil => exact .inr ⟨rfl, rfl⟩
  | cons u us =>
    left
    by_cases closes : u.isSymbol sectionCloser
    · rw [read_pass (.pattern lenient closes), read_nil]
      exact ⟨_, _, rfl, List.cons_ne_nil u us, .warning front⟩
    · have other := eq_false_of_ne_true closes
      have taken : ∀ v ∈ begun ++ [u], v.isSymbol sectionCloser = false :=
        List.forall_mem_append.2 ⟨front, List.forall_mem_singleton.2 other⟩
      rw [List.append_cons]
      by_cases kind : u.kind = .literal
      · rw [read_take (.pattern kind), List.append_nil, read_nil]
        exact ⟨_, _, rfl, List.cons_ne_nil u us, .entry taken⟩
      · rw [read_take (.skipPattern lenient kind other), List.append_nil, read_nil]
        exact ⟨_, _, rfl, List.cons_ne_nil u us, .warning taken⟩

/-- **What a round comes to**: it adds something, or the tokens are the beginning of an entry and
their end is all that is found behind it. -/
theorem round_adds_or_lacks (lenient : m.strict = false) (takes : Takes m 0 d t .entries new d')
    (ts : List Token) :
    (∃ d'' rest, read m new.dropLast d' ts = ⟨none, d'', rest⟩ ∧ ¬ LacksPattern (t :: ts) ∧
        RoundAdds d (t :: ts) d'' rest) ∨
      LacksPattern (t :: ts) ∧
        read m new.dropLast d' ts = ⟨some (.endOfInput Phrase.token), d, []⟩ := by
  cases takes with
  | entry kind =>
    have sets : [Goal.separator ":", .pattern t.text, .entries].dropLast =
        [.separator ":", .pattern t.text] := rfl
    rw [sets]
    rcases comes_cases ":" ts with ⟨colon, us, rfl, isColon⟩ | other
    · rw [read_separator isColon]
      have begins : LacksPattern [t, colon] := .separated kind isColon
      rcases pattern_adds_or_lacks lenient begins t.text d us with
        ⟨d'', rest, eq, more, adds⟩ | ⟨rfl, eq⟩
      · refine .inl ⟨d'', rest, eq, ?_, adds⟩
        rintro ⟨⟩
        exact more rfl
      · exact .inr ⟨begins, eq⟩
    · rw [read_separator_of_lenient lenient other]
      have begins : LacksPattern [t] := .named kind
      rcases pattern_adds_or_lacks lenient begins t.text d ts with
        ⟨d'', rest, eq, more, adds⟩ | ⟨rfl, eq⟩
      · refine .inl ⟨d'', rest, eq, ?_, adds⟩
        intro lacks
        cases lacks with
        | named => exact more rfl
        | separated _ isColon => simp [isColon] at other
      · exact .inr ⟨begins, eq⟩
  | skipEntry _ kind other =>
    have none : read m [Goal.entries].dropLast (d.note (.entrySkipped t)) ts = _ := read_nil m _ ts
    have adds : RoundAdds d ([t] ++ ts) (d.note (.entrySkipped t)) ts :=
      .warning (List.forall_mem_singleton.2 other)
    refine .inl ⟨_, ts, none, ?_, adds⟩
    intro lacks
    cases lacks <;> contradiction
  | production begins => cases begins
  | nonterminal begins | terminal begins | group begins | action begins => cases begins

/-- **The entries of a section are read in rounds.** -/
theorem read_entries_inRounds (lenient : m.strict = false) (d : Draft) (ts : List Token) :
    InRounds d ts (entryRounds m d ts) (read m [.entries] d ts) := by
  fun_induction entryRounds m d ts with
  | case1 d => exact .ended (by simp)
  | case2 d t ts new d' h o ih =>
    have takes : Takes m 0 d t .entries new d' := holds_of_react_eq h
    rw [read_round rfl takes]
    rcases round_adds_or_lacks lenient takes ts with ⟨d'', rest, eq, more, adds⟩ | ⟨lacks, eq⟩
    · have round : o = ⟨none, d'', rest⟩ := eq
      rw [eq, Outcome.andThen_of_none rfl, round]
      rw [round] at ih
      exact .more more adds ih
    · have round : o = ⟨some (.endOfInput Phrase.token), d, []⟩ := eq
      rw [eq, Outcome.andThen_of_some rfl, round]
      exact .missing lacks
  | case3 d t ts d' h =>
    have passes : Passes m d t .entries d' := holds_of_react_eq h
    rw [read_pass passes, read_nil]
    cases passes with
    | entries closes =>
      refine .ended ?_
      rintro u ⟨⟩
      exact closes
  | case4 d t ts f isTaken h =>
    have refuses : Refuses m 0 t .entries f isTaken := holds_of_react_eq h
    cases refuses with
    | entries strict => simp [lenient] at strict
    | production begins | factor begins | group begins => cases begins

end Rounds

/-! ### Rounds in a row -/

/-- A round that finds no fault adds one entry and notes nothing, or it adds none and warns once. -/
def EntryRound.Contributes (r : EntryRound) : Prop :=
  (∃ name pattern, r.nodes = [.leaf (.token name pattern)] ∧ r.notices = []) ∨
    ∃ t, r.nodes = [] ∧ r.notices = [.entrySkipped t]

section InRounds

variable {d d' : Draft} {ts rest : List Token} {rounds : List EntryRound} {o : Outcome}

theorem RoundAdds.dropWhile_eq (h : RoundAdds d ts d' rest) :
    ts.dropWhile (!·.isSymbol sectionCloser) = rest.dropWhile (!·.isSymbol sectionCloser) := by
  cases h with
  | entry front | warning front =>
    apply List.dropWhile_append_of_pos
    intro u mem
    rw [front u mem]
    rfl

theorem RoundAdds.contributes (h : RoundAdds d ts d' rest) :
    EntryRound.Contributes ⟨d, ts, ⟨none, d', rest⟩⟩ := by
  cases h with
  | @entry front rest name pattern =>
    exact .inl ⟨name, pattern, by simp [EntryRound.nodes, EntryRound.notices, Draft.add]⟩
  | @warning front rest t =>
    exact .inr ⟨t, by simp [EntryRound.nodes, EntryRound.notices, Draft.note]⟩

/-- What a round adds stands behind what there was. -/
theorem RoundAdds.draft_eq (h : RoundAdds d ts d' rest) :
    d'.pending = d.pending ++ EntryRound.nodes ⟨d, ts, ⟨none, d', rest⟩⟩ ∧
      d'.notices = d.notices ++ EntryRound.notices ⟨d, ts, ⟨none, d', rest⟩⟩ := by
  cases h <;> simp [EntryRound.nodes, EntryRound.notices, Draft.add, Draft.note]

namespace InRounds

/-- **The rounds take the tokens in front of the first closing brace**, or all of them. -/
theorem rest_eq (h : InRounds d ts rounds o) :
    o.rest = ts.dropWhile (!·.isSymbol sectionCloser) := by
  induction h with
  | ended closes =>
    rename_i ts
    cases ts with
    | nil => rfl
    | cons u us => rw [List.dropWhile_cons_of_neg (by simp [closes u rfl])]
  | missing lacks =>
    symm
    rw [List.dropWhile_eq_nil_iff]
    intro u mem
    rw [lacks.isSymbol_eq u mem]
    rfl
  | more _ adds _ ih => rw [ih, adds.dropWhile_eq]

/-- Rounds find no fault but that a pattern is missing at the end of the tokens. -/
theorem fault_eq (h : InRounds d ts rounds o) {f : Fault} (fault : o.fault = some f) :
    f = .endOfInput Phrase.token ∧ o.rest = [] := by
  induction h with
  | ended => cases fault
  | missing => exact ⟨(Option.some.inj fault).symm, rfl⟩
  | more _ _ _ ih => exact ih fault

/-- They find it if the last one begins an entry at the end of the tokens. -/
theorem fault_ne_none_iff (h : InRounds d ts rounds o) :
    o.fault ≠ none ↔ ∃ r ∈ rounds.getLast?, LacksPattern r.ahead := by
  induction h with
  | ended => simp
  | missing lacks => simpa using lacks
  | @more d d' ts rest rounds o complete _ _ ih =>
    rw [ih, List.getLast?_cons]
    cases rounds.getLast? with
    | none => simpa using complete
    | some r => simp

/-- In front of a closing brace they end without a fault. -/
theorem fault_eq_none (h : InRounds d ts rounds o) {t : Token} {behind : List Token}
    (left : o.rest = t :: behind) : o.fault = none := by
  cases fault : o.fault with
  | none => rfl
  | some f =>
    obtain ⟨-, none⟩ := h.fault_eq fault
    rw [left] at none
    cases none

theorem contributes (h : InRounds d ts rounds o) :
    ∀ r ∈ rounds, r.outcome.fault = none → r.Contributes := by
  induction h with
  | ended => simp
  | missing => simp
  | more _ adds _ ih => exact List.forall_mem_cons.2 ⟨fun _ => adds.contributes, ih⟩

/-- What the rounds add stands behind what there was, in order. -/
theorem draft_eq (h : InRounds d ts rounds o) :
    o.draft.pending = d.pending ++ rounds.flatMap EntryRound.nodes ∧
      o.draft.notices = d.notices ++ rounds.flatMap EntryRound.notices := by
  induction h with
  | ended => simp
  | missing => simp [EntryRound.nodes, EntryRound.notices]
  | more _ adds _ ih =>
    rw [ih.1, ih.2, adds.draft_eq.1, adds.draft_eq.2]
    simp

end InRounds

end InRounds

/-! ### Sections -/

section Sections

variable {m : Mode} {d : Draft} {ts : List Token}

/-- A lenient reader takes the opening brace of a section if it is there. -/
theorem exists_read_opener (lenient : m.strict = false) (d : Draft) (ts : List Token) :
    ∃ rest, read m [.separator sectionOpener] d ts = ⟨none, d, rest⟩ ∧
      rest.dropWhile (!·.isSymbol sectionCloser) = ts.dropWhile (!·.isSymbol sectionCloser) := by
  rcases comes_cases sectionOpener ts with ⟨u, us, rfl, opens⟩ | other
  · refine ⟨us, (read_separator opens).trans (read_nil m d us), ?_⟩
    have noCloser : u.isSymbol sectionCloser = false := Token.isSymbol_eq_of_isSymbol opens
    rw [List.dropWhile_cons_of_pos (by rw [noCloser]; rfl)]
  · exact ⟨ts, (read_separator_of_lenient lenient other).trans (read_nil m d ts), rfl⟩

/-- **A token section is its entries**, from behind the opening brace on, and the closing brace. -/
theorem read_tokenSection (lenient : m.strict = false) {rest : List Token}
    (opened : read m [.separator sectionOpener] d ts = ⟨none, d, rest⟩) :
    read m Rule.tokenSection.goals d ts =
      { read m [.entries] d rest with rest := (read m [.entries] d rest).rest.tail } := by
  have inRow : read m ([.separator sectionOpener] ++ ([.entries] ++ [.separator sectionCloser])) d
      ts = _ := read_append m rfl _ d ts
  have closing : read m ([.entries] ++ [.separator sectionCloser]) d rest = _ :=
    read_append m rfl _ d rest
  have closes (ok : (read m [.entries] d rest).fault = none) :
      ∀ u ∈ (read m [.entries] d rest).rest.head?, u.isSymbol sectionCloser := by
    intro u mem
    exact (head?_rest_read (g := .entries) rfl [] ok u mem).2
  have rounds := read_entries_inRounds lenient d rest
  refine inRow.trans ?_
  rw [opened, Outcome.andThen_of_none rfl, closing]
  generalize read m [.entries] d rest = o at rounds closes ⊢
  obtain ⟨fault, d', left⟩ := o
  cases fault with
  | some f =>
    -- Where a pattern is missing the tokens are at their end.
    obtain ⟨-, rfl⟩ : f = _ ∧ left = [] := rounds.fault_eq rfl
    rfl
  | none =>
    rw [Outcome.andThen_of_none rfl]
    cases left with
    | nil => exact (read_separator_of_lenient lenient (by simp)).trans (read_nil m d' [])
    | cons u us => exact (read_separator (closes rfl u rfl)).trans (read_nil m d' us)

end Sections

namespace Parser

/-- The rounds in which a parser reads the entries of the token section that it stands in. -/
def entryRounds (p : Parser) (c : Nat) : List EntryRound :=
  let opened := read p.mode [.separator sectionOpener] (.resume p.children [] c) p.stream.ahead
  GrammarNotation.entryRounds p.mode opened.draft opened.rest

/-- **A token section ends behind the first closing brace**, or with the tokens if there is none.
Then the reading fails if the last round began an entry at the end of the tokens, and it never
fails otherwise. What is read and what is noted is what each round contributes. -/
structure EndsSection (p : Parser) (c : Nat) (r : Progress (List Tree)) : Prop where
  closed : ∀ front closer rest, p.stream.ahead = front ++ closer :: rest →
    closer.isSymbol sectionCloser → (∀ t ∈ front, t.isSymbol sectionCloser = false) →
      r.result.isOk ∧ r.parser.stream.ahead = rest ∧
        r.parser.stream.taken = p.stream.taken + front.length + 1
  unclosed : (∀ t ∈ p.stream.ahead, t.isSymbol sectionCloser = false) →
    r.parser.stream.ahead = [] ∧ r.parser.stream.taken = p.stream.toList.length
  fault_eq : ∀ f, r.result = .error f → f = .endOfInput Phrase.token
  fails_iff : (∃ f, r.result = .error f) ↔
    ∃ round ∈ (p.entryRounds c).getLast?, LacksPattern round.ahead
  contributes : ∀ round ∈ p.entryRounds c, round.outcome.fault = none → round.Contributes
  nodes_eq : ∀ nodes, r.result = .ok nodes →
    nodes = (p.entryRounds c).flatMap EntryRound.nodes
  notices_eq : r.notices = (p.entryRounds c).flatMap EntryRound.notices

/-- A rule that fills no scratch body shows what comes of reading its goals. -/
theorem readRule_of_read {p : Parser} {r : Rule} {c : Nat} {o : Outcome}
    (plain : r.fillsScratch = false)
    (h : read p.mode r.goals (.resume p.children [] c) p.stream.ahead = o) :
    (p.readRule r c).result = resultOf o o.draft.pending ∧
      (p.readRule r c).parser.stream = p.stream.advanceTo o.rest ∧
      (p.readRule r c).notices = o.draft.notices := by
  subst h
  simp [readRule, plain, after]

/-- What a token section reads is read in the rounds of its entries, which end where the first
closing brace is. -/
theorem exists_inRounds_of_tokenSection (p : Parser) (c : Nat) (lenient : p.mode.strict = false) :
    ∃ ts o, InRounds (.resume p.children [] c) ts (p.entryRounds c) o ∧
      o.rest = p.stream.ahead.dropWhile (!·.isSymbol sectionCloser) ∧
      (p.readRule .tokenSection c).result = resultOf o o.draft.pending ∧
      (p.readRule .tokenSection c).parser.stream = p.stream.advanceTo o.rest.tail ∧
      (p.readRule .tokenSection c).notices = o.draft.notices := by
  obtain ⟨rest, opened, sameEnd⟩ :=
    exists_read_opener lenient (.resume p.children [] c) p.stream.ahead
  have rounds := read_entries_inRounds lenient (.resume p.children [] c) rest
  have same : p.entryRounds c =
      GrammarNotation.entryRounds p.mode (.resume p.children [] c) rest := by
    rw [entryRounds, opened]
  refine ⟨rest, _, same ▸ rounds, rounds.rest_eq.trans sameEnd, ?_⟩
  exact readRule_of_read rfl (read_tokenSection lenient opened)

/-- **A lenient token section ends behind the first closing brace**, however malformed its entries
are. -/
theorem lenient_tokenSection_ends (p : Parser) (c : Nat) (lenient : p.mode.strict = false) :
    p.EndsSection c (p.readRule .tokenSection c) := by
  obtain ⟨ts, o, rounds, left, result, stream, notices⟩ :=
    exists_inRounds_of_tokenSection p c lenient
  have failed_iff {f : Fault} :
      (p.readRule .tokenSection c).result = .error f ↔ o.fault = some f := by
    rw [result, resultOf]
    cases o.fault <;> simp
  refine ⟨?closed, ?unclosed, ?fault_eq, ?fails_iff, rounds.contributes, ?nodes_eq, ?notices_eq⟩
  case closed =>
    intro front closer behind split closes open_
    have upTo : o.rest = closer :: behind := by
      rw [left, split, List.dropWhile_append_of_pos fun u mem => by rw [open_ u mem]; rfl,
        List.dropWhile_cons_of_neg (by simp [closes])]
    rw [List.append_cons] at split
    rw [result, resultOf, rounds.fault_eq_none upTo, stream, upTo, List.tail_cons,
      TokenStream.taken_advanceTo split, List.length_append]
    exact ⟨rfl, rfl, rfl⟩
  case unclosed =>
    intro open_
    have none : o.rest = [] := by
      rw [left, List.dropWhile_eq_nil_iff]
      intro u mem
      rw [open_ u mem]
      rfl
    rw [stream, none, List.tail_nil]
    refine ⟨rfl, ?_⟩
    rw [TokenStream.taken_advanceTo (List.append_nil _).symm]
    simp [TokenStream.taken, TokenStream.toList]
  case fault_eq =>
    intro f failed
    exact (rounds.fault_eq (failed_iff.1 failed)).1
  case fails_iff =>
    rw [← rounds.fault_ne_none_iff, Option.ne_none_iff_exists']
    exact exists_congr fun f => failed_iff
  case nodes_eq =>
    intro nodes ok
    have same : nodes = o.draft.pending := by
      rw [result, resultOf] at ok
      cases fault : o.fault <;> rw [fault] at ok
      · exact (Except.ok.inj ok).symm
      · cases ok
    rw [same, rounds.draft_eq.1]
    rfl
  case notices_eq =>
    rw [notices, rounds.draft_eq.2]
    rfl

/-- The tokens of `tokens { : a : { b c : } ; }`, of which the first has been taken. -/
def malformedSection : Parser :=
  { ofTokens {} "" [] with
    stream := ⟨[⟨.keyword, "tokens", none⟩],
      [.ofSymbol "\x7b", .ofSymbol ":", ⟨.identifier, "a", none⟩, .ofSymbol ":", .ofSymbol "\x7b",
        ⟨.identifier, "b", none⟩, ⟨.identifier, "c", none⟩, .ofSymbol ":", .ofSymbol "\x7d",
        .ofSymbol ";", .ofSymbol "\x7d"]⟩ }

/-- No entry of the section is well formed, and it ends at the first brace. -/
theorem lenient_malformedSection_ends :
    malformedSection.mode.strict = false ∧
      (malformedSection.readRule .tokenSection 4).result.isOk ∧
      (malformedSection.readRule .tokenSection 4).parser.stream.ahead =
        [.ofSymbol ";", .ofSymbol "\x7d"] ∧
      (malformedSection.readRule .tokenSection 4).parser.stream.taken = 10 := by
  have ends := lenient_tokenSection_ends malformedSection 4 rfl
  exact ⟨rfl, ends.closed (malformedSection.stream.ahead.take 8) (.ofSymbol "\x7d") _ rfl rfl
    (by decide)⟩

/-- A name and a colon at the end of the tokens are the beginning of an entry. -/
example : (({ malformedSection with
    stream := .ofList [⟨.identifier, "a", none⟩, .ofSymbol ":"] } : Parser).readRule
      .tokenSection 4).result = .error (.endOfInput Phrase.token) := rfl

end Parser

end GrammarNotation
