import GrammarNotation.Proofs.Lexeme.Relaying
import GrammarNotation.Proofs.Reading.Parse
import GrammarNotation.Proofs.Reading.Recasting

/-!
# Places and layout

Where tokens stand has no part in what is made of them; it only shows in faults and in notices. So
the layout of a source does not matter: with each token on a line of its own it is parsed in the
same way.

## Main definitions

- `Recasting.unplaced` — tokens, and notices about them, without their places
- `Progress.Agrees` — two parses with the same result, places apart

## Main statements

- `Parser.agrees_of_map_unplaced_eq` — tokens that differ in their places are parsed alike
- `Parser.parse_relaid` — a source is parsed as its tokens on lines of their own are
-/

namespace GrammarNotation

/-- The notice about a token without its place. -/
def Notice.unplaced : Notice → Notice
  | .invalidCharacter t => .invalidCharacter t.unplaced
  | .tokenListed t => .tokenListed t.unplaced
  | .entrySkipped t => .entrySkipped t.unplaced
  | .productionRead number name => .productionRead number name
  | .failure message => .failure message

/-- The fault without the place of its token. -/
def Fault.unplaced (f : Fault) : Fault := f.mapToken Token.unplaced

/-- No goal looks at the places of tokens. -/
def Recasting.unplaced : Recasting where
  draft d := { d with notices := d.notices.map Notice.unplaced }
  token := Token.unplaced
  kind_token _ := rfl
  text_token _ := rfl
  counter_draft _ := rfl
  draft_add _ _ := rfl
  draft_attach _ _ := rfl
  draft_beginProduction _ _ := rfl
  draft_endProduction _ _ _ := by
    simp [Draft.endProduction, Draft.note, Draft.add, Notice.unplaced]
  draft_commit _ := rfl

theorem Recasting.keepsWarnings_unplaced : Recasting.unplaced.KeepsWarnings := by
  intro d t
  simp [unplaced, Draft.note, Notice.unplaced]

/-- **Two parses that differ in the places of tokens at most**: the trees and the counters are the
same, and so are the faults, if there are any, but for the places of their tokens. -/
structure Progress.Agrees (r r' : Progress Tree) : Prop where
  tree_eq : r.parser.tree = r'.parser.tree
  counter_eq : r.counter = r'.counter
  result_eq : r.result.mapError Fault.unplaced = r'.result.mapError Fault.unplaced

namespace Parser

variable {s : Settings} {source source' : String} {ts ts' : List Token}

/-- What comes of reading tokens without their places. -/
theorem reading_map_unplaced (s : Settings) (source : String) (ts : List Token) (c : Nat) :
    (ofTokens s source (ts.map Token.unplaced)).reading c =
      ((ofTokens s source ts).reading c).recast .unplaced := by
  have recast : read s.mode [.sections] (Recasting.unplaced.draft (.resume [] [] c))
      (ts.map Recasting.unplaced.token) = _ := read_recast (.inl Recasting.keepsWarnings_unplaced)
  exact recast

theorem mapError_result_parse (p : Parser) (c : Nat) :
    (p.parse c).result.mapError Fault.unplaced =
      ((p.reading c).fault.map Fault.unplaced).elim (.ok (.node .root (p.reading c).draft.children))
        .error := by
  rw [result_parse]
  cases (p.reading c).fault <;> rfl

/-- Tokens that differ in their places at most are parsed alike. -/
theorem agrees_of_map_unplaced_eq (same : ts.map Token.unplaced = ts'.map Token.unplaced)
    (c : Nat) :
    ((ofTokens s source ts).parse c).Agrees ((ofTokens s source' ts').parse c) := by
  have recast : ((ofTokens s source ts).reading c).recast .unplaced =
      ((ofTokens s source' ts').reading c).recast .unplaced := by
    rw [← reading_map_unplaced, ← reading_map_unplaced, same]
    rfl
  have children : ((ofTokens s source ts).reading c).draft.children =
      ((ofTokens s source' ts').reading c).draft.children :=
    congrArg (fun o => o.draft.children) recast
  have counter : ((ofTokens s source ts).reading c).draft.counter =
      ((ofTokens s source' ts').reading c).draft.counter :=
    congrArg (fun o => o.draft.counter) recast
  have fault : ((ofTokens s source ts).reading c).fault.map Fault.unplaced =
      ((ofTokens s source' ts').reading c).fault.map Fault.unplaced :=
    congrArg Outcome.fault recast
  refine ⟨?_, ?_, ?_⟩
  · rw [tree_parse, tree_parse, children]
  · rw [counter_parse, counter_parse, counter]
  · rw [mapError_result_parse, mapError_result_parse, fault, children]

/-- **Layout does not matter**: a source has the same tokens, places apart, as the text in which
each of its tokens stands on a line of its own, and it is parsed in the same way. -/
theorem parse_relaid (plain : ∀ r ∈ s.vocabulary.symbols, '\n' ∉ r.toList) (source : String) :
    (∀ keepComments,
      (s.vocabulary.tokens keepComments (s.vocabulary.relaid keepComments source)).map
          Token.unplaced =
        (s.vocabulary.tokens keepComments source).map Token.unplaced) ∧
      ∀ c, ((ofSource s (s.vocabulary.relaid false source)).1.parse c).Agrees
        ((ofSource s source).1.parse c) := by
  refine ⟨fun keepComments => Vocabulary.map_unplaced_tokens_relaid plain keepComments source, ?_⟩
  intro c
  exact agrees_of_map_unplaced_eq (Vocabulary.map_unplaced_tokens_relaid plain false source) c

theorem parse_relaid_commented :
    (∀ r ∈ Vocabulary.standard.symbols, '\n' ∉ r.toList) ∧
      ((Vocabulary.standard.tokens true (Vocabulary.standard.relaid true "a-b/*c*/1.5 'd\"")).map
          Token.unplaced =
        (Vocabulary.standard.tokens true "a-b/*c*/1.5 'd\"").map Token.unplaced) ∧
      ((ofSource {} (Vocabulary.standard.relaid false "a-b/*c*/1.5 'd\"")).1.parse 0).Agrees
        ((ofSource {} "a-b/*c*/1.5 'd\"").1.parse 0) := by
  have plain : ∀ r ∈ (Settings.vocabulary {}).symbols, '\n' ∉ r.toList := by decide
  obtain ⟨tokens, parses⟩ := parse_relaid plain "a-b/*c*/1.5 'd\""
  exact ⟨plain, tokens true, parses 0⟩

end Parser

end GrammarNotation
