import GrammarNotation.Proofs.Reading.Language
import GrammarNotation.Proofs.Reading.Parse

/-!
# What a strict parser accepts

A strict parser accepts the sentences of the notation and nothing else, and the tree that it
builds is the tree of what the sentence says.

## Main statements

- `isSentence_of_read` — what a strict reader reads without a fault is a sentence
- `Parser.strict_parse_iff_sentence` — a strict parser accepts exactly the sentences, and builds
  their trees

## Design notes

A sentence can be nested too deeply for a parser. Where a parser does not give up for this reason,
it parses like the parser without a depth limit, and that one accepts every sentence.
-/

namespace GrammarNotation

/-- The tokens are a sentence of the notation. -/
def IsSentence (ts : List Token) : Prop :=
  ∃ D, Sentence ts D

/-- The tokens that a strict reader has taken, with whatever meets the goals that are left, are a
sentence. -/
theorem isSentence_of_steps {m : Mode} {d : Draft} {ts us : List Token} {c : Configuration}
    (steps : ReadingSteps m ⟨[.sections], d, ts⟩ c) (strict : m.strict)
    (plain : ∀ t ∈ ts, t.kind ≠ .comment) {taken : List Token} (eq : ts = taken ++ c.rest)
    (spelled : Goal.AllSpelled c.goals us) : IsSentence (taken ++ us) := by
  obtain ⟨taken', eq', all⟩ := steps.allSpelled strict plain
  obtain rfl : taken = taken' := List.append_cancel_right (eq.symm.trans eq')
  exact Goal.allSpelled_singleton.1 (all us spelled)

/-- What a strict reader reads without a fault is a sentence. -/
theorem isSentence_of_read {m : Mode} {d : Draft} {ts : List Token} (strict : m.strict)
    (plain : ∀ t ∈ ts, t.kind ≠ .comment) (h : (read m [.sections] d ts).fault = none) :
    IsSentence ts := by
  have rest := rest_read_sections h
  obtain ⟨c, steps, stops⟩ := exists_stops_of_read m [.sections] d ts
  generalize read m [.sections] d ts = o at h rest stops
  cases stops with
  | met =>
    obtain rfl := rest
    have sentence : IsSentence (ts ++ []) :=
      isSentence_of_steps steps strict plain (List.append_nil ts).symm rfl
    rwa [List.append_nil] at sentence
  | refused => cases h
  | missing => cases h

/-- A reader that does not give up reads like the reader without a depth limit. -/
theorem read_unlimited {m : Mode} {goals : List Goal} {d : Draft} {ts : List Token}
    (shallow : ∀ f, (read m goals d ts).fault = some f → f.kind ≠ .nesting) :
    read m.unlimited goals d ts = read m goals d ts :=
  read_eq_of_extends m.extends_unlimited shallow

/-- A sentence is read to its end by every reader that does not give up. -/
theorem Sentence.read_eq_of_shallow {m : Mode} {d : Draft} {ts : List Token} {D : Description}
    (h : Sentence ts D)
    (shallow : ∀ f, (read m [.sections] d ts).fault = some f → f.kind ≠ .nesting) :
    read m [.sections] d ts = ⟨none, d.addDescription D, []⟩ := by
  rw [← read_unlimited shallow]
  exact h.read_eq fun e _ => .unlimited m

/-- What a reader finds fault with is no sentence, unless it gives up. -/
theorem not_isSentence_of_fault {m : Mode} {d : Draft} {ts : List Token} {f : Fault}
    (fault : (read m [.sections] d ts).fault = some f) (shallow : f.kind ≠ .nesting) :
    ¬ IsSentence ts := by
  rintro ⟨D, sentence⟩
  have complete : read m [.sections] d ts = ⟨none, d.addDescription D, []⟩ := by
    apply sentence.read_eq_of_shallow
    intro f' fault'
    obtain rfl := Option.some.inj (fault.symm.trans fault')
    exact shallow
  rw [complete] at fault
  cases fault

namespace Parser

/-- **A strict parser accepts exactly the sentences of the notation**, and builds the tree of what
the sentence says: a leaf for each grammar section, a leaf for each entry of a token section, and
for each production a node with the next number, over its head and the flat form of its
expression. -/
theorem strict_parse_iff_sentence (s : Settings) (source : String) (ts : List Token) (c : Nat)
    (strict : s.mode.strict) (plain : ∀ t ∈ ts, t.kind ≠ .comment)
    (shallow : ∀ f, ((ofTokens s source ts).parse c).result = .error f → f.kind ≠ .nesting) :
    (((ofTokens s source ts).parse c).result.isOk ↔ ∃ D, Sentence ts D) ∧
      ∀ D, Sentence ts D →
        ((ofTokens s source ts).parse c).result = .ok (D.tree c) ∧
          ((ofTokens s source ts).parse c).parser.tree = D.tree c ∧
          ((ofTokens s source ts).parse c).counter = c + D.productionCount := by
  have shallow' : ∀ f, (read s.mode [.sections] (.resume [] [] c) ts).fault = some f →
      f.kind ≠ .nesting := by
    intro f fault
    exact shallow f (result_parse_eq_error_iff.2 fault)
  have complete : ∀ D, Sentence ts D →
      (ofTokens s source ts).reading c =
        ⟨none, (Draft.resume [] [] c).addDescription D, []⟩ := by
    intro D sentence
    exact sentence.read_eq_of_shallow shallow'
  refine ⟨⟨?_, ?_⟩, ?_⟩
  · intro ok
    exact isSentence_of_read strict plain (isOk_result_parse_iff.1 ok)
  · rintro ⟨D, sentence⟩
    exact isOk_result_parse_iff.2 (congrArg Outcome.fault (complete D sentence))
  · intro D sentence
    exact parse_of_reading (complete D sentence)

/-- The description `grammar g; tokens {id: "x"} productions {S: [a] | "b";}`. -/
def sampleDescription : Description :=
  [.grammar "g", .tokens [("id", "x")],
    .productions [("S", .more (.one (.enclosed .option (.one (.one (.nonterminal "a")))))
      (.one (.one (.terminal "b"))))]]

/-- The tokens of the sample. -/
def sampleTokens : List Token :=
  [⟨.keyword, "grammar", none⟩, ⟨.identifier, "g", none⟩, .ofSymbol ";",
    ⟨.keyword, "tokens", none⟩, .ofSymbol "\x7b", ⟨.identifier, "id", none⟩, .ofSymbol ":",
    ⟨.literal, "x", none⟩, .ofSymbol "\x7d",
    ⟨.keyword, "productions", none⟩, .ofSymbol "\x7b", ⟨.identifier, "S", none⟩, .ofSymbol ":",
    .ofSymbol "[", ⟨.identifier, "a", none⟩, .ofSymbol "]", .ofSymbol "|", ⟨.literal, "b", none⟩,
    .ofSymbol ";", .ofSymbol "\x7d"]

theorem sentence_sampleTokens : Sentence sampleTokens sampleDescription := by
  have optional : FactorSentence [.ofSymbol "[", ⟨.identifier, "a", none⟩, .ofSymbol "]"] _ :=
    @FactorSentence.enclosed .option (.ofSymbol "[") (.ofSymbol "]") _ _ rfl
      (.one (.one (.nonterminal rfl))) rfl
  have literal : FactorSentence [⟨.literal, "b", none⟩] _ := .terminal rfl
  have body : ExpressionSentence _ _ :=
    @ExpressionSentence.more (.ofSymbol "|") _ _ _ _ (.one optional) rfl (.one (.one literal))
  have rules : ProductionsSentence _ _ :=
    @ProductionsSentence.cons ⟨.identifier, "S", none⟩ (.ofSymbol ":") (.ofSymbol ";") _ _ _ _ rfl
      rfl body rfl .nil
  have entries : EntriesSentence _ _ :=
    @EntriesSentence.cons ⟨.identifier, "id", none⟩ (.ofSymbol ":") ⟨.literal, "x", none⟩ _ _ rfl
      rfl rfl .nil
  have first : SectionSentence _ _ :=
    @SectionSentence.grammar ⟨.keyword, "grammar", none⟩ ⟨.identifier, "g", none⟩ (.ofSymbol ";")
      ⟨rfl, rfl⟩ rfl rfl
  have second : SectionSentence _ _ :=
    @SectionSentence.tokens ⟨.keyword, "tokens", none⟩ (.ofSymbol "\x7b") (.ofSymbol "\x7d") _ _
      ⟨rfl, rfl⟩ rfl entries rfl
  have third : SectionSentence _ _ :=
    @SectionSentence.productions ⟨.keyword, "productions", none⟩ (.ofSymbol "\x7b")
      (.ofSymbol "\x7d") _ _ ⟨rfl, rfl⟩ rfl rules rfl
  exact .cons first (.cons second (.cons third .nil))

/-- A strict parser whose counter stands at 4 gives the production of the sample the number 5. -/
theorem strict_parse_sampleTokens :
    ((ofTokens { mode := { strict := true } } "" sampleTokens).parse 4).result =
      .ok (sampleDescription.tree 4) := by
  have ok : ((ofTokens { mode := { strict := true } } "" sampleTokens).parse 4).result.isOk := rfl
  refine ((strict_parse_iff_sentence { mode := { strict := true } } "" sampleTokens 4 rfl
    (by decide) ?_).2 sampleDescription sentence_sampleTokens).1
  intro f failed
  rw [failed] at ok
  cases ok

end Parser

end GrammarNotation
