import GrammarNotation.Proofs.Failure.WholeSections
import GrammarNotation.Proofs.Lexeme.Concatenation
import GrammarNotation.Proofs.Strict.Acceptance

/-!
# Descriptions in a row

A strict reader ends each section with a token of its own, so it goes on behind a description as if
nothing had been in front. With the default vocabulary no token of a description leaves a comment
open, so the tokens of two texts with a newline between them are those of the two texts. Together:
parsing two texts in a row is parsing one and then the other, with one counter.

## Main definitions

- `Token.IsOrdinary` — the token is no symbol but the punctuation of descriptions
- `Recasting.moved` — tokens further down

## Main statements

- `read_sections_append` — reading tokens in a row
- `Sentence.isOrdinary` — the tokens of a description
- `Parser.strict_parse_append` — parsing two texts in a row
-/

namespace GrammarNotation

/-! ### Tokens in a row -/

section Strict

variable {m : Mode} {d : Draft} {t : Token} {ts : List Token} {r : Rule}

/-- What ends with a separator is read in the same way whatever stands behind it. -/
theorem exists_read_of_strict (strict : m.strict) {front : List Goal} {s : String}
    (ok : (read m (front ++ [.separator s]) d ts).fault = none) :
    ∃ taken, ts = taken ++ (read m (front ++ [.separator s]) d ts).rest ∧
      ∀ us, read m (front ++ [.separator s]) d (taken ++ us) =
        ⟨none, (read m (front ++ [.separator s]) d ts).draft, us⟩ := by
  have inRow : read m (front ++ [.separator s]) d ts = _ := read_append m rfl front d ts
  rw [inRow] at ok
  have first := Outcome.fault_eq_none_of_andThen ok
  rw [Outcome.andThen_of_none first] at ok
  rcases separator_cases ok with ⟨u, us, rest, closes⟩ | ⟨lenient, -⟩
  · obtain ⟨taken, split, cut⟩ := exists_read_of_closes first rest closes
    have whole := cut us
    rw [← split] at whole
    rw [whole]
    exact ⟨taken, split, cut⟩
  · rw [strict] at lenient
    cases lenient

theorem exists_read_section_of_strict (strict : m.strict) (h : t.Opens r)
    (ok : (read m r.goals d ts).fault = none) :
    ∃ taken, ts = taken ++ (read m r.goals d ts).rest ∧
      ∀ us, read m r.goals d (taken ++ us) = ⟨none, (read m r.goals d ts).draft, us⟩ := by
  rcases h.goals_eq with eq | ⟨g, -, -, eq⟩
  · rw [eq] at ok ⊢
    cases ts with
    | nil => cases ok
    | cons name ts =>
      by_cases kind : name.kind = .identifier
      · have named : ∀ us, read m [.grammarName] d (name :: us) =
            read m ([] ++ [.separator ";"]) (d.add (.leaf (.grammar name.text))) us :=
          fun us => read_take (.grammarName kind) us
        rw [named] at ok ⊢
        obtain ⟨taken, split, cut⟩ := exists_read_of_strict strict ok
        refine ⟨name :: taken, congrArg (name :: ·) split, ?_⟩
        intro us
        exact (named _).trans (cut us)
      · rw [fault_read_of_refuses (.grammarName kind)] at ok
        cases ok
  · rw [eq] at ok ⊢
    exact exists_read_of_strict strict ok

/-- **A strict reader goes on behind a description** from what it has built, whatever comes. -/
theorem read_sections_append (strict : m.strict) (ok : (read m [.sections] d ts).fault = none)
    (us : List Token) :
    read m [.sections] d (ts ++ us) = read m [.sections] (read m [.sections] d ts).draft us := by
  induction n : ts.length using Nat.strongRecOn generalizing d ts with
  | _ n ih =>
    cases ts with
    | nil => rfl
    | cons t ts =>
      rw [List.length_cons] at n
      by_cases comment : t.kind = .comment
      · have skipped : ∀ us, read m [.sections] d (t :: us) = read m [.sections] d us :=
          fun us => read_take (.comment comment) us
        rw [skipped] at ok
        rw [List.cons_append, skipped, skipped]
        exact ih ts.length (by omega) ok rfl
      by_cases opens : ∃ r, t.Opens r
      · obtain ⟨r, opens⟩ := opens
        rw [read_opens opens] at ok
        have inner := Outcome.fault_eq_none_of_andThen ok
        rw [Outcome.andThen_of_none inner] at ok
        obtain ⟨taken, split, cut⟩ := exists_read_section_of_strict strict opens inner
        have shorter := (rest_read_suffix m r.goals d ts).length_le
        have onward := cut ((read m r.goals d ts).rest ++ us)
        rw [← List.append_assoc, ← split] at onward
        rw [List.cons_append, read_opens opens, onward, Outcome.andThen_of_none rfl,
          read_opens opens, Outcome.andThen_of_none inner]
        exact ih _ (by omega) ok rfl
      · have none : ∀ r, ¬ t.Opens r := fun r h => opens ⟨r, h⟩
        rw [fault_read_of_refuses (refuses_of_not_opens comment none)] at ok
        cases ok

end Strict

/-! ### The tokens of a description -/

/-- A symbol is one of the punctuation of descriptions. -/
def Token.IsOrdinary (t : Token) : Prop :=
  t.kind = .symbol → t.text ∈ Vocabulary.punctuation

section Ordinary

variable {t : Token} {ts : List Token}

theorem Token.isOrdinary_of_kind {k : TokenClass} (kind : t.kind = k) (other : k ≠ .symbol) :
    t.IsOrdinary :=
  fun isSymbol => absurd (kind.symm.trans isSymbol) other

theorem Token.isOrdinary_of_isSymbol {s : String} (h : t.isSymbol s)
    (mem : s ∈ Vocabulary.punctuation) : t.IsOrdinary := by
  intro _
  rw [(Token.isSymbol_iff.1 h).2]
  exact mem

mutual

theorem FactorSentence.isOrdinary {ts : List Token} {f : Factor} (h : FactorSentence ts f) :
    ∀ t ∈ ts, t.IsOrdinary := by
  cases h with
  | nonterminal kind | terminal kind =>
    exact List.forall_mem_singleton.2 (Token.isOrdinary_of_kind kind (by decide))
  | action opens kind closes =>
    rw [List.forall_mem_cons, List.forall_mem_cons, List.forall_mem_singleton]
    exact ⟨Token.isOrdinary_of_isSymbol opens (by decide),
      Token.isOrdinary_of_kind kind (by decide), Token.isOrdinary_of_isSymbol closes (by decide)⟩
  | @enclosed b opener closer inner e opens expression closes =>
    have brackets : b.opener ∈ Vocabulary.punctuation ∧ b.closer ∈ Vocabulary.punctuation := by
      cases b <;> decide
    rw [List.forall_mem_cons, List.forall_mem_append, List.forall_mem_singleton]
    exact ⟨Token.isOrdinary_of_isSymbol opens brackets.1,
      ExpressionSentence.isOrdinary expression, Token.isOrdinary_of_isSymbol closes brackets.2⟩

theorem TermSentence.isOrdinary {ts : List Token} {e : Term} (h : TermSentence ts e) :
    ∀ t ∈ ts, t.IsOrdinary := by
  cases h with
  | one factor => exact FactorSentence.isOrdinary factor
  | more factor term =>
    exact List.forall_mem_append.2
      ⟨FactorSentence.isOrdinary factor, TermSentence.isOrdinary term⟩

theorem ExpressionSentence.isOrdinary {ts : List Token} {e : Expression}
    (h : ExpressionSentence ts e) : ∀ t ∈ ts, t.IsOrdinary := by
  cases h with
  | one term => exact TermSentence.isOrdinary term
  | more term isBar expression =>
    rw [List.forall_mem_append, List.forall_mem_cons]
    exact ⟨TermSentence.isOrdinary term, Token.isOrdinary_of_isSymbol isBar (by decide),
      ExpressionSentence.isOrdinary expression⟩

end

theorem EntriesSentence.isOrdinary {entries : List (String × String)}
    (h : EntriesSentence ts entries) : ∀ t ∈ ts, t.IsOrdinary := by
  induction h with
  | nil => simp
  | cons isName isColon isPattern _ ih =>
    rw [List.forall_mem_cons, List.forall_mem_cons, List.forall_mem_cons]
    exact ⟨Token.isOrdinary_of_kind isName (by decide),
      Token.isOrdinary_of_isSymbol isColon (by decide),
      Token.isOrdinary_of_kind isPattern (by decide), ih⟩

theorem ProductionsSentence.isOrdinary {rules : List (String × Expression)}
    (h : ProductionsSentence ts rules) : ∀ t ∈ ts, t.IsOrdinary := by
  induction h with
  | nil => simp
  | cons isName isColon expression isSemicolon _ ih =>
    rw [List.forall_mem_cons, List.forall_mem_cons, List.forall_mem_append, List.forall_mem_cons]
    exact ⟨Token.isOrdinary_of_kind isName (by decide),
      Token.isOrdinary_of_isSymbol isColon (by decide), expression.isOrdinary,
      Token.isOrdinary_of_isSymbol isSemicolon (by decide), ih⟩

theorem SectionSentence.isOrdinary {s : Section} (h : SectionSentence ts s) :
    ∀ t ∈ ts, t.IsOrdinary := by
  cases h with
  | grammar isKeyword isName isSemicolon =>
    rw [List.forall_mem_cons, List.forall_mem_cons, List.forall_mem_singleton]
    exact ⟨Token.isOrdinary_of_kind isKeyword.1 (by decide),
      Token.isOrdinary_of_kind isName (by decide),
      Token.isOrdinary_of_isSymbol isSemicolon (by decide)⟩
  | tokens isKeyword opens inner closes | productions isKeyword opens inner closes =>
    rw [List.forall_mem_cons, List.forall_mem_cons, List.forall_mem_append,
      List.forall_mem_singleton]
    exact ⟨Token.isOrdinary_of_kind isKeyword.1 (by decide),
      Token.isOrdinary_of_isSymbol opens (by decide), inner.isOrdinary,
      Token.isOrdinary_of_isSymbol closes (by decide)⟩

/-- **No symbol stands in a description but its punctuation.** -/
theorem Sentence.isOrdinary {D : Description} (h : Sentence ts D) : ∀ t ∈ ts, t.IsOrdinary := by
  induction h with
  | nil => simp
  | cons first _ ih => exact List.forall_mem_append.2 ⟨first.isOrdinary, ih⟩

end Ordinary

/-! ### Parsers -/

/-- No goal looks at how far down a token stands. -/
def Recasting.moved (count lines : Int) : Recasting where
  draft := id
  token := Token.moved count lines
  kind_token _ := rfl
  text_token _ := rfl
  counter_draft _ := rfl
  draft_add _ _ := rfl
  draft_attach _ _ := rfl
  draft_beginProduction _ _ := rfl
  draft_endProduction _ _ _ := rfl
  draft_commit _ := rfl

namespace Parser

variable {s : Settings} {source : String} {c : Nat}

/-- The default lexer keeps no comments. -/
theorem kind_ne_comment_of_mem_tokens {v : Vocabulary} {t : Token}
    (h : t ∈ v.tokens false source) : t.kind ≠ .comment := by
  rw [Vocabulary.tokens_false_eq_filter] at h
  exact of_decide_eq_true (List.mem_filter.1 h).2

/-- A strict parser with the default vocabulary that succeeds has left no comment open, so what it
has read is not cut otherwise if something follows. -/
theorem tokens_append_of_strict (strict : s.mode.strict) (standard : s.vocabulary = .standard)
    (complete : ((ofSource s source).1.reading c).fault = none) (more : String) :
    s.vocabulary.tokens false (source ++ "\n" ++ more) =
      s.vocabulary.tokens false source ++ (s.vocabulary.tokens false more).map
        (Token.moved (source.length + 1) (source.toList.count '\n' + 1)) := by
  obtain ⟨D, sentence⟩ : IsSentence (s.vocabulary.tokens false source) :=
    isSentence_of_read strict (fun t mem => kind_ne_comment_of_mem_tokens mem) complete
  have closed : ∀ t ∈ s.vocabulary.tokens false source, t.isSymbol "/*" = false := by
    intro t mem
    rw [Bool.eq_false_iff]
    intro isSymbol
    obtain ⟨kind, text⟩ := Token.isSymbol_iff.1 isSymbol
    have ordinary := sentence.isOrdinary t mem kind
    rw [text] at ordinary
    exact absurd ordinary (by decide)
  rw [standard] at closed ⊢
  rw [Vocabulary.tokens_append_newline closed, String.length_toList]

/-- What comes of reading the second text behind the first one: the same as on its own, with the
nodes and notices of the first text in front, and with the tokens further down. -/
theorem reading_append (strict : s.mode.strict) (standard : s.vocabulary = .standard)
    (complete : ((ofSource s source).1.reading c).fault = none) (more : String) :
    let first := ((ofSource s source).1.reading c).draft
    let second := (ofSource s more).1.reading first.counter
    let moved := Recasting.moved (source.length + 1) (source.toList.count '\n' + 1)
    (ofSource s (source ++ "\n" ++ more)).1.reading c =
      { second.recast moved with
        draft := (Recasting.onto first.children first.notices).draft second.draft } := by
  intro first second moved
  have staged : Goal.Staged [.sections] [] := by
    simp [Goal.Staged, Goal.awaited?, Goal.fillsBody]
  -- Between sections a draft is as good as a fresh one, with other nodes in front.
  have fresh : first = (Recasting.onto first.children first.notices).draft
      (.resume [] [] first.counter) :=
    Draft.eq_onto_resume (pending_read_sections rfl complete) (body_read staged complete)
  have recast : read s.mode [.sections] (.resume [] [] first.counter)
      ((s.vocabulary.tokens false more).map moved.token) = second.recast moved :=
    read_recast (f := moved) (.inr (warnings_read_of_strict strict _ _ _))
  calc (ofSource s (source ++ "\n" ++ more)).1.reading c
      = read s.mode [.sections] (.resume [] [] c)
          (s.vocabulary.tokens false (source ++ "\n" ++ more)) := rfl
    _ = read s.mode [.sections] first ((s.vocabulary.tokens false more).map moved.token) := by
        rw [tokens_append_of_strict strict standard complete]
        exact read_sections_append strict complete _
    _ = { second.recast moved with
          draft := (Recasting.onto first.children first.notices).draft second.draft } := by
        conv => lhs; rw [fresh, read_onto, recast]
        rfl

/-- **Parsing two texts in a row**, with a newline between them, is parsing one and then the other
with the same counter: if a strict parser with the default vocabulary succeeds on the first text,
the tree has the nodes of both, the numbers go on, and the parse fails just if the second one does,
with the same fault at the same token, as far down as the second text stands. -/
theorem strict_parse_append (strict : s.mode.strict) (standard : s.vocabulary = .standard)
    (ok : ((ofSource s source).1.parse c).result.isOk) (more : String) :
    let first := (ofSource s source).1.parse c
    let second := (ofSource s more).1.parse first.counter
    let whole := (ofSource s (source ++ "\n" ++ more)).1.parse c
    whole.parser.children = first.parser.children ++ second.parser.children ∧
      whole.counter = second.counter ∧
      whole.result = (second.result.map fun _ => whole.parser.tree).mapError
        (·.mapToken (Token.moved (source.length + 1) (source.toList.count '\n' + 1))) := by
  intro first second whole
  have complete := isOk_result_parse_iff.1 ok
  have reading := reading_append strict standard complete more
  refine ⟨congrArg (fun o => o.draft.children) reading,
    congrArg (fun o => o.draft.counter) reading, ?_⟩
  have fault : ((ofSource s (source ++ "\n" ++ more)).1.reading c).fault =
      ((ofSource s more).1.reading first.counter).fault.map
        (·.mapToken (Token.moved (source.length + 1) (source.toList.count '\n' + 1))) :=
    congrArg Outcome.fault reading
  rw [result_parse, result_parse, fault]
  cases ((ofSource s more).1.reading first.counter).fault with
  | none => rfl
  | some f => rfl

/-- A comment at the end of the first text, and a fault in the third line of both. -/
theorem strict_parse_append_faulty :
    let s : Settings := { mode := { strict := true } }
    ((ofSource s "productions {a: b;} // 'c").1.parse 4).result.isOk ∧
      ((ofSource s ("productions {a: b;} // 'c" ++ "\n" ++ "productions {c: d;}\n '")).1.parse
        4).result = .error (.unrecognized ⟨.symbol, "'", some ⟨47, 3, 1⟩⟩ Phrase.description) := by
  intro s
  have ok : ((ofSource s "productions {a: b;} // 'c").1.parse 4).result.isOk := by decide +kernel
  refine ⟨ok, ?_⟩
  rw [(strict_parse_append rfl rfl ok "productions {c: d;}\n '").2.2]
  decide +kernel

end Parser

end GrammarNotation
