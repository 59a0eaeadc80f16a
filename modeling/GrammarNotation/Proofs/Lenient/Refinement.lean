import GrammarNotation.Proofs.Reading.Growth
import GrammarNotation.Proofs.Reading.Parse

/-!
# Strict parsers refine lenient ones

A strict and a lenient parser of the same tokens do the same until the strict one finds fault with
a missing separator or a malformed entry. From there on the lenient one can only go further, since
a reading takes nothing back.

## Main definitions

- `Mode.lenient` — the reader that is strict about nothing
- `Progress.Refines` — the second parse goes at least as far as the first one, and does the
  same if the first one succeeds

## Main statements

- `rest_read_lenient` — a lenient reader takes at least the tokens that a strict one takes
- `Parser.strict_parse_refines_lenient` — the comparison of the two parses
-/

namespace GrammarNotation

/-! ### Readers -/

/-- The reader that is strict about nothing, with the same depth limit. -/
def Mode.lenient (m : Mode) : Mode := { m with strict := false }

theorem Mode.admits_lenient (m : Mode) : m.Admits m.lenient :=
  ⟨fun _ => rfl, fun _ allowed => allowed⟩

section Readers

variable {m : Mode} {depth : Nat} {g : Goal} {t : Token} {f : Fault}

/-- A token that is refused after it was used up is used up by a lenient reader, too. -/
theorem Refuses.lenient (refuses : Refuses m depth t g f true) (d : Draft) :
    Refuses m.lenient depth t g f true ∨ ∃ new d', Takes m.lenient depth d t g new d' := by
  cases refuses with
  | sections notComment first second third => exact .inl (.sections notComment first second third)
  | grammarName kind => exact .inl (.grammarName kind)
  | entries _ kind other => exact .inr ⟨_, _, .skipEntry rfl kind other⟩
  | pattern _ kind other => exact .inr ⟨_, _, .skipPattern rfl kind other⟩
  | production begins kind open_ => exact .inl (.production begins kind open_)
  | factor begins ne starts => exact .inl (.factor begins ne starts)
  | group begins opens refused => exact .inl (.group begins opens refused)
  | code kind => exact .inl (.code kind)

/-- Where a reader stops, a lenient one has taken at least the same tokens in the end. -/
theorem Stops.rest_suffix_lenient {c : Configuration} {o : Outcome} (stops : Stops m c o) :
    (c.outcome m.lenient).rest <:+ o.rest := by
  cases stops with
  | met => exact rest_read_suffix _ _ _ _
  | missing => exact rest_read_suffix _ _ _ _
  | @refused g goals d t ts f isTaken refuses =>
    cases isTaken with
    | false => exact rest_read_suffix _ _ _ _
    | true =>
      rcases refuses.lenient d with refuses' | ⟨new, d', takes⟩
      · have stops' : Stops m.lenient ⟨g :: goals, d, t :: ts⟩ _ := .refused refuses'
        have rest : (Configuration.outcome m.lenient ⟨g :: goals, d, t :: ts⟩).rest = ts :=
          congrArg Outcome.rest stops'.outcome_eq
        exact ⟨[], rest⟩
      · have next : Configuration.outcome m.lenient ⟨g :: goals, d, t :: ts⟩ = _ :=
          read_take takes ts
        rw [next]
        exact rest_read_suffix _ _ _ _

variable (m : Mode) (goals : List Goal) (d : Draft) (ts : List Token)

/-- A lenient reader takes at least the tokens that a strict one takes. -/
theorem rest_read_lenient : (read m.lenient goals d ts).rest <:+ (read m goals d ts).rest := by
  obtain ⟨c, steps, stops⟩ := exists_stops_of_read m goals d ts
  have same : read m.lenient goals d ts = c.outcome m.lenient :=
    (steps.of_admits m.admits_lenient).outcome_eq
  rw [same]
  exact stops.rest_suffix_lenient

/-- A lenient reader builds on what a strict one builds. -/
theorem growsTo_read_lenient :
    (read m goals d ts).draft.GrowsTo (read m.lenient goals d ts).draft := by
  obtain ⟨c, steps, stops⟩ := exists_stops_of_read m goals d ts
  have same : read m.lenient goals d ts = c.outcome m.lenient :=
    (steps.of_admits m.admits_lenient).outcome_eq
  rw [stops.draft_eq, same]
  exact growsTo_read m.lenient c.goals c.draft c.rest

end Readers

/-! ### Parsers -/

/-- The settings of a strict parser. -/
def Settings.strict (s : Settings) : Settings := { s with mode := { s.mode with strict := true } }

/-- The settings of a lenient parser. -/
def Settings.lenient (s : Settings) : Settings := { s with mode := s.mode.lenient }

/-- What a reading warned of. -/
def Progress.warnings {α : Type} (r : Progress α) : List Notice :=
  r.notices.filter (·.severity = .warning)

/-- **The first parse refines the second**, which goes at least as far: it takes at least as many
tokens and numbers, builds on the same tree and fails only if the first one does. If the first one
succeeds, both do the same, and nothing is warned of. -/
structure Progress.Refines (r r' : Progress Tree) : Prop where
  result_eq : ∀ t, r.result = .ok t → r'.result = .ok t
  counter_eq : r.result.isOk → r'.counter = r.counter
  output_eq : r.result.isOk → r'.output = r.output
  notices_eq : r.result.isOk → r'.notices = r.notices
  noWarning : r.result.isOk → r'.warnings = []
  taken_le : r.parser.stream.taken ≤ r'.parser.stream.taken
  counter_le : r.counter ≤ r'.counter
  children_prefix : r.parser.tree.children <+: r'.parser.tree.children
  fails : ∀ f', r'.result = .error f' → ∃ f, r.result = .error f

namespace Parser

/-- A parse warns of what is warned of while the tokens are read. -/
theorem warnings_parse (p : Parser) (c : Nat) :
    (p.parse c).warnings = (p.reading c).draft.warnings := by
  have listed : ∀ ts : List Token,
      (ts.map Notice.tokenListed).filter (·.severity = .warning) = [] := by
    intro ts
    simp [Notice.severity]
  rw [Progress.warnings, notices_parse, List.filter_append]
  split <;> simp [listed, Draft.warnings]

variable (s : Settings) (source : String) (ts : List Token) (c : Nat)

/-- What a strict parser reads without a fault, a lenient one reads in the same way. -/
theorem reading_lenient_eq_of_strict (ok : ((ofTokens s.strict source ts).parse c).result.isOk) :
    (ofTokens s.lenient source ts).reading c = (ofTokens s.strict source ts).reading c :=
  read_eq_of_admits s.strict.mode.admits_lenient (isOk_result_parse_iff.1 ok)

theorem warnings_parse_strict : ((ofTokens s.strict source ts).parse c).warnings = [] := by
  rw [warnings_parse]
  exact warnings_read_of_strict rfl _ _ _

/-- **Strict parsing refines lenient parsing**: on the same tokens and with the same counter, a
lenient parser does what a strict one does if that succeeds, and goes at least as far if not. -/
theorem strict_parse_refines_lenient :
    ((ofTokens s.strict source ts).parse c).Refines ((ofTokens s.lenient source ts).parse c) := by
  have grows : ((ofTokens s.strict source ts).reading c).draft.GrowsTo
      ((ofTokens s.lenient source ts).reading c).draft :=
    growsTo_read_lenient s.strict.mode [.sections] (.resume [] [] c) ts
  have suffix : ((ofTokens s.lenient source ts).reading c).rest <:+
      ((ofTokens s.strict source ts).reading c).rest :=
    rest_read_lenient s.strict.mode [.sections] (.resume [] [] c) ts
  have result_eq : ((ofTokens s.strict source ts).parse c).result.isOk →
      ((ofTokens s.lenient source ts).parse c).result =
        ((ofTokens s.strict source ts).parse c).result := by
    intro ok
    rw [result_parse, result_parse, reading_lenient_eq_of_strict s source ts c ok]
  have notices_eq : ((ofTokens s.strict source ts).parse c).result.isOk →
      ((ofTokens s.lenient source ts).parse c).notices =
        ((ofTokens s.strict source ts).parse c).notices := by
    intro ok
    rw [notices_parse, notices_parse, reading_lenient_eq_of_strict s source ts c ok]
    rfl
  refine ⟨?_, ?_, ?_, notices_eq, ?_, ?_, grows.counter, grows.children, ?_⟩
  · intro t h
    rw [result_eq (h ▸ rfl)]
    exact h
  · intro ok
    rw [counter_parse, counter_parse, reading_lenient_eq_of_strict s source ts c ok]
  · intro ok
    rw [output_parse, output_parse, reading_lenient_eq_of_strict s source ts c ok]
    rfl
  · intro ok
    rw [Progress.warnings, notices_eq ok]
    exact warnings_parse_strict s source ts c
  · have length := suffix.length_le
    rw [taken_parse, taken_parse]
    exact Nat.add_le_add_left (Nat.sub_le_sub_left length _) _
  · intro f' failed
    cases h : ((ofTokens s.strict source ts).parse c).result with
    | error f => exact ⟨f, rfl⟩
    | ok t =>
      rw [result_eq (h ▸ rfl), h] at failed
      cases failed

end Parser

end GrammarNotation
