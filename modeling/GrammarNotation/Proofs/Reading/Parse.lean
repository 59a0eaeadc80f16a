import GrammarNotation.Parser
import GrammarNotation.Proofs.Reading.Sentences

/-!
# Parsing as reading

A parser that reads all that is left of its description reads the tokens ahead against the goal of
a description. What comes of it depends on nothing else.

## Main definitions

- `Parser.reading` — the reading behind `Parser.parse`

## Main statements

- `Parser.result_parse`, `Parser.tree_parse`, `Parser.counter_parse`, `Parser.notices_parse`,
  `Parser.output_parse`, `Parser.taken_parse` — the parts of a parse in terms of the reading
- `Parser.parse_of_sentence` — a sentence that is not nested too deeply is parsed to its tree
-/

namespace GrammarNotation.Parser

/-- What comes of reading all that is left of the description. -/
def reading (p : Parser) (counter : Nat) : Outcome :=
  read p.mode [.sections] (.resume p.children [] counter) p.stream.ahead

theorem result_parse (p : Parser) (counter : Nat) :
    (p.parse counter).result =
      (p.reading counter).fault.elim (.ok (.node .root (p.reading counter).draft.children))
        .error := by
  have eq : (p.parse counter).result =
      (resultOf (p.reading counter) (p.reading counter).draft.pending).map
        fun _ => Tree.node .root (p.reading counter).draft.children := rfl
  rw [eq, resultOf]
  cases (p.reading counter).fault <;> rfl

theorem tree_parse (p : Parser) (counter : Nat) :
    (p.parse counter).parser.tree = .node .root (p.reading counter).draft.children := rfl

theorem counter_parse (p : Parser) (counter : Nat) :
    (p.parse counter).counter = (p.reading counter).draft.counter := rfl

/-- What a parse notes: the tokens that it lists, and what is noted while they are read. -/
theorem notices_parse (p : Parser) (counter : Nat) :
    (p.parse counter).notices =
      (if p.tracing.tokens then p.stream.toList.map Notice.tokenListed else []) ++
        (p.reading counter).draft.notices := rfl

/-- What a parse writes: the trace of the tree, once there is no fault. -/
theorem output_parse (p : Parser) (counter : Nat) :
    (p.parse counter).output =
      if (p.reading counter).fault.isNone then
        traceText { p with children := (p.reading counter).draft.children } else "" := by
  have eq : (p.parse counter).output =
      if ((p.readRule .description counter).result).isOk then
        traceText { p with children := (p.reading counter).draft.children } else "" := rfl
  have ok : (p.readRule .description counter).result =
      resultOf (p.reading counter) (p.reading counter).draft.pending := rfl
  rw [eq, ok, resultOf]
  cases (p.reading counter).fault <;> rfl

theorem stream_parse (p : Parser) (counter : Nat) :
    (p.parse counter).parser.stream = p.stream.advanceTo (p.reading counter).rest := rfl

theorem taken_parse (p : Parser) (counter : Nat) :
    (p.parse counter).parser.stream.taken =
      p.stream.taken + (p.stream.ahead.length - (p.reading counter).rest.length) := by
  obtain ⟨front, split⟩ : (p.reading counter).rest <:+ p.stream.ahead :=
    rest_read_suffix p.mode [.sections] _ p.stream.ahead
  have taken : (p.stream.advanceTo (p.reading counter).rest).taken = _ :=
    TokenStream.taken_advanceTo split.symm
  rw [stream_parse, taken, ← split, List.length_append, Nat.add_sub_cancel]

theorem isOk_result_parse_iff {p : Parser} {counter : Nat} :
    (p.parse counter).result.isOk ↔ (p.reading counter).fault = none := by
  rw [result_parse]
  cases (p.reading counter).fault <;> simp [Except.isOk, Except.toBool]

theorem result_parse_eq_error_iff {p : Parser} {counter : Nat} {f : Fault} :
    (p.parse counter).result = .error f ↔ (p.reading counter).fault = some f := by
  rw [result_parse]
  cases (p.reading counter).fault <;> simp

/-- A parser that has read a whole description has built its tree. -/
theorem parse_of_reading {s : Settings} {source : String} {ts : List Token} {c : Nat}
    {D : Description} (h : (ofTokens s source ts).reading c =
      ⟨none, (Draft.resume [] [] c).addDescription D, []⟩) :
    ((ofTokens s source ts).parse c).result = .ok (D.tree c) ∧
      ((ofTokens s source ts).parse c).parser.tree = D.tree c ∧
      ((ofTokens s source ts).parse c).counter = c + D.productionCount := by
  obtain ⟨children, counter⟩ := (Draft.resume [] [] c).addDescription_eq D rfl
  have tree : Tree.node .root ((Draft.resume [] [] c).addDescription D).children = D.tree c :=
    congrArg (Tree.node .root) children
  rw [result_parse, tree_parse, counter_parse, h]
  exact ⟨congrArg Except.ok tree, tree, counter⟩

/-- A sentence that is not nested too deeply is parsed to the tree of what it says, by a strict
parser and by a lenient one. -/
theorem parse_of_sentence {s : Settings} {ts : List Token} {D : Description} (h : Sentence ts D)
    (allowed : ∀ e ∈ D.expressions, s.mode.AllowsFrom 0 e.depth) (source : String) (c : Nat) :
    ((ofTokens s source ts).parse c).result = .ok (D.tree c) ∧
      ((ofTokens s source ts).parse c).parser.tree = D.tree c ∧
      ((ofTokens s source ts).parse c).counter = c + D.productionCount :=
  parse_of_reading (h.read_eq allowed)

end GrammarNotation.Parser
