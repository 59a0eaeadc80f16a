import GrammarNotation.Proofs.Lexeme.Words
import GrammarNotation.Proofs.Reading.Parse

/-!
# Parsing undoes printing

A tree whose names and values have the shapes of identifiers and literals is printed as a text that
is parsed to the same tree, by a strict parser and by a lenient one.

## Main definitions

- `IsName`, `IsValue` — the texts that can be printed as identifiers and as literals
- `Tree.IsPrintable` — a tree that can be printed, its productions being numbered in order
- `Spells` — the tokens are those of the words, places apart

## Main statements

- `Expression.sentence_of_spells` — the tokens of a printed expression are a sentence for it
- `PrintableAfter.exists_description` — a printable tree is the tree of a description, of which the
  printed text is a sentence
- `Parser.parse_printed` — a printed tree is parsed to itself

## Design notes

Printing makes a section of every child of the root, so the description that is read has as many
sections as the tree has children. Its tree is the same, since the sections are put in a row.
-/

namespace GrammarNotation

/-! ### Printable trees -/

/-- **A name**: an identifier that is no keyword. -/
def IsName (s : String) : Prop :=
  IsIdentifier s.toList ∧ s ∉ Vocabulary.standard.keywords

/-- **A value**: what may stand between double quotes, or between single quotes. -/
def IsValue (s : String) : Prop :=
  LiteralBody '"' s.toList ∨ LiteralBody '\'' s.toList

/-- The names and values of a node in the body of a production can be printed. -/
def Role.IsPrintable : Role → Prop
  | .nonterminal name => IsName name
  | .terminal text => IsValue text
  | .action code => IsValue code
  | .mark _ => True
  | _ => False

/-- The children of a root can be printed, their productions being numbered from `c + 1` on. Each
production has a head and the flat form of an expression that is not nested too deeply. -/
inductive PrintableAfter (m : Mode) : (c : Nat) → List Tree → Prop
  | nil {c : Nat} : PrintableAfter m c []
  | grammar {c : Nat} {name : String} {ts : List Tree} : IsName name → PrintableAfter m c ts →
      PrintableAfter m c (.leaf (.grammar name) :: ts)
  | token {c : Nat} {name pattern : String} {ts : List Tree} : IsName name → IsValue pattern →
      PrintableAfter m c ts → PrintableAfter m c (.leaf (.token name pattern) :: ts)
  | production {c : Nat} {name : String} {e : Expression} {ts : List Tree} : IsName name →
      (∀ r ∈ e.roles, r.IsPrintable) → m.AllowsFrom 0 e.depth → PrintableAfter m (c + 1) ts →
      PrintableAfter m c (productionNode (c + 1) name e.roles :: ts)

/-- **A tree that can be printed**, its productions being numbered from `c + 1` on. -/
structure Tree.IsPrintable (m : Mode) (c : Nat) (t : Tree) : Prop where
  role_eq : t.role = .root
  children : PrintableAfter m c t.children

/-! ### Words and their tokens -/

/-- The text is a word of descriptions. -/
def IsWord (w : String) : Prop :=
  ∃ k s, Vocabulary.standard.Reads w k s

/-- The tokens are those of the words, places apart. -/
def Spells (ts : List Token) (ws : List String) : Prop :=
  ts.map Token.unplaced = ws.map Vocabulary.standard.tokenOf

section Words

variable {ts : List Token} {w s : String} {ws ws' : List String} {k : TokenClass}

theorem IsName.reads (h : IsName s) : Vocabulary.standard.Reads s .identifier s :=
  Vocabulary.reads_identifier h.1 h.2

theorem IsValue.reads (h : IsValue s) :
    Vocabulary.standard.Reads (literalLexeme s) .literal s :=
  Vocabulary.reads_literalLexeme h

theorem spells_nil : Spells ts [] ↔ ts = [] :=
  List.map_eq_nil_iff

theorem Spells.exists_append (h : Spells ts (ws ++ ws')) :
    ∃ us vs, ts = us ++ vs ∧ Spells us ws ∧ Spells vs ws' := by
  rw [Spells, List.map_append] at h
  exact List.map_eq_append_iff.1 h

/-- The token of a word is of its class, and has its text. -/
theorem Spells.exists_cons (h : Spells ts (w :: ws)) (reads : Vocabulary.standard.Reads w k s) :
    ∃ t us, ts = t :: us ∧ t.kind = k ∧ t.text = s ∧ Spells us ws := by
  rw [Spells, List.map_cons, reads.tokenOf_eq] at h
  obtain ⟨t, us, rfl, eq, others⟩ := List.map_eq_cons_iff.1 h
  exact ⟨t, us, rfl, congrArg Token.kind eq, congrArg Token.text eq, others⟩

theorem Spells.exists_symbol (h : Spells ts (s :: ws)) (mem : s ∈ Vocabulary.punctuation) :
    ∃ t us, ts = t :: us ∧ t.isSymbol s ∧ Spells us ws := by
  obtain ⟨t, us, rfl, kind, text, others⟩ := h.exists_cons (Vocabulary.reads_punctuation s mem)
  exact ⟨t, us, rfl, Token.isSymbol_iff.2 ⟨kind, text⟩, others⟩

theorem Spells.exists_keyword (h : Spells ts (s :: ws))
    (mem : s ∈ Vocabulary.standard.keywords) :
    ∃ t us, ts = t :: us ∧ t.IsKeyword s ∧ Spells us ws := by
  obtain ⟨t, us, rfl, kind, text, others⟩ :=
    h.exists_cons (Vocabulary.reads_standardKeyword s mem)
  exact ⟨t, us, rfl, ⟨kind, text⟩, others⟩

/-- The tokens of a text that is written with one blank between words are those of the words. -/
theorem spells_tokens (h : ∀ w ∈ ws, IsWord w) :
    Spells (Vocabulary.standard.tokens false
      (String.ofList ([' '].intercalate (ws.map String.toList)))) ws := by
  apply Vocabulary.map_unplaced_tokens_join
  intro w mem
  obtain ⟨k, s, reads⟩ := h w mem
  exact reads.cutsWhole

end Words

theorem opener_mem_punctuation (b : Bracket) : b.opener ∈ Vocabulary.punctuation := by
  cases b <;> decide

theorem closer_mem_punctuation (b : Bracket) : b.closer ∈ Vocabulary.punctuation := by
  cases b <;> decide

theorem isWord_of_mem_punctuation {s : String} (mem : s ∈ Vocabulary.punctuation) : IsWord s :=
  ⟨_, _, Vocabulary.reads_punctuation s mem⟩

theorem isWord_of_mem_keywords {s : String} (mem : s ∈ Vocabulary.standard.keywords) : IsWord s :=
  ⟨_, _, Vocabulary.reads_standardKeyword s mem⟩

theorem Role.IsPrintable.isWord {r : Role} (h : r.IsPrintable) : ∀ w ∈ r.lexemes, IsWord w := by
  cases r <;> simp only [Role.IsPrintable] at h
  case nonterminal name => simpa [Role.lexemes] using ⟨_, _, h.reads⟩
  case terminal text => simpa [Role.lexemes] using ⟨_, _, h.reads⟩
  case action code =>
    simp only [Role.lexemes, List.forall_mem_cons]
    exact ⟨isWord_of_mem_punctuation (by decide), ⟨_, _, h.reads⟩,
      isWord_of_mem_punctuation (by decide), by simp⟩
  case mark m =>
    have mem : m.text ∈ Vocabulary.punctuation := by
      cases m with
      | bar => decide
      | opening b => exact opener_mem_punctuation b
      | closing b => exact closer_mem_punctuation b
    simpa [Role.lexemes] using isWord_of_mem_punctuation mem

/-! ### Printed expressions -/

mutual

theorem Factor.sentence_of_spells (f : Factor) {ts : List Token}
    (printable : ∀ r ∈ f.roles, r.IsPrintable) (h : Spells ts (f.roles.flatMap Role.lexemes)) :
    FactorSentence ts f := by
  cases f with
  | nonterminal name =>
    have isName : IsName name := printable (.nonterminal name) (by simp [Factor.roles])
    obtain ⟨t, us, rfl, kind, rfl, none⟩ := h.exists_cons isName.reads
    obtain rfl := spells_nil.1 none
    exact .nonterminal kind
  | terminal text =>
    have isValue : IsValue text := printable (.terminal text) (by simp [Factor.roles])
    obtain ⟨t, us, rfl, kind, rfl, none⟩ := h.exists_cons isValue.reads
    obtain rfl := spells_nil.1 none
    exact .terminal kind
  | action code =>
    have isValue : IsValue code := printable (.action code) (by simp [Factor.roles])
    obtain ⟨opener, us, rfl, opens, h⟩ := h.exists_symbol (by decide)
    obtain ⟨t, us, rfl, kind, text, h⟩ := h.exists_cons isValue.reads
    obtain ⟨closer, us, rfl, closes, none⟩ := h.exists_symbol (by decide)
    obtain rfl := spells_nil.1 none
    subst text
    exact .action opens kind closes
  | enclosed b e =>
    have words : (Factor.enclosed b e).roles.flatMap Role.lexemes =
        b.opener :: (e.roles.flatMap Role.lexemes ++ [b.closer]) := by
      simp [Factor.roles, Role.lexemes, Mark.text]
    rw [words] at h
    obtain ⟨opener, us, rfl, opens, h⟩ := h.exists_symbol (opener_mem_punctuation b)
    obtain ⟨inner, us, rfl, body, h⟩ := h.exists_append
    obtain ⟨closer, us, rfl, closes, none⟩ := h.exists_symbol (closer_mem_punctuation b)
    obtain rfl := spells_nil.1 none
    have printable' : ∀ r ∈ e.roles, r.IsPrintable :=
      fun r mem => printable r (by simp [Factor.roles, mem])
    exact .enclosed opens (Expression.sentence_of_spells e printable' body) closes

theorem Term.sentence_of_spells (t : Term) {ts : List Token}
    (printable : ∀ r ∈ t.roles, r.IsPrintable) (h : Spells ts (t.roles.flatMap Role.lexemes)) :
    TermSentence ts t := by
  cases t with
  | one f => exact .one (Factor.sentence_of_spells f printable h)
  | more f t =>
    rw [Term.roles, List.forall_mem_append] at printable
    rw [Term.roles, List.flatMap_append] at h
    obtain ⟨us, vs, rfl, first, others⟩ := h.exists_append
    exact .more (Factor.sentence_of_spells f printable.1 first)
      (Term.sentence_of_spells t printable.2 others)

/-- The tokens of a printed expression are a sentence for it. -/
theorem Expression.sentence_of_spells (e : Expression) {ts : List Token}
    (printable : ∀ r ∈ e.roles, r.IsPrintable) (h : Spells ts (e.roles.flatMap Role.lexemes)) :
    ExpressionSentence ts e := by
  cases e with
  | one t => exact .one (Term.sentence_of_spells t printable h)
  | more t e =>
    rw [Expression.roles, List.forall_mem_append, List.forall_mem_cons] at printable
    rw [Expression.roles, List.flatMap_append, List.flatMap_cons] at h
    obtain ⟨us, vs, rfl, first, h⟩ := h.exists_append
    obtain ⟨bar, vs, rfl, isBar, others⟩ := h.exists_symbol (s := "|") (by decide)
    exact .more (Term.sentence_of_spells t printable.1 first) isBar
      (Expression.sentence_of_spells e printable.2.2 others)

end

/-! ### Printed sections -/

theorem sectionLexemes_productionNode (number : Nat) (name : String) (roles : List Role) :
    (productionNode number name roles).sectionLexemes =
      "productions" :: "\x7b" :: name :: ":" ::
        (roles.flatMap Role.lexemes ++ [";", "\x7d"]) := by
  simp [productionNode, Tree.sectionLexemes, Tree.leaf, List.flatMap_map]

section Sections

variable {ts : List Token} {name pattern : String} {e : Expression} {number : Nat}

theorem grammarSentence_of_spells (isName : IsName name)
    (h : Spells ts (Tree.leaf (.grammar name)).sectionLexemes) :
    SectionSentence ts (.grammar name) := by
  obtain ⟨keyword, us, rfl, isKeyword, h⟩ := h.exists_keyword (by decide)
  obtain ⟨t, us, rfl, kind, text, h⟩ := h.exists_cons isName.reads
  obtain ⟨semicolon, us, rfl, isSemicolon, none⟩ := h.exists_symbol (by decide)
  obtain rfl := spells_nil.1 none
  subst text
  exact .grammar isKeyword kind isSemicolon

theorem tokenSentence_of_spells (isName : IsName name) (isValue : IsValue pattern)
    (h : Spells ts (Tree.leaf (.token name pattern)).sectionLexemes) :
    SectionSentence ts (.tokens [(name, pattern)]) := by
  obtain ⟨keyword, us, rfl, isKeyword, h⟩ := h.exists_keyword (by decide)
  obtain ⟨opener, us, rfl, opens, h⟩ := h.exists_symbol (by decide)
  obtain ⟨t, us, rfl, kind, text, h⟩ := h.exists_cons isName.reads
  obtain ⟨colon, us, rfl, isColon, h⟩ := h.exists_symbol (by decide)
  obtain ⟨t', us, rfl, kind', text', h⟩ := h.exists_cons isValue.reads
  obtain ⟨closer, us, rfl, closes, none⟩ := h.exists_symbol (by decide)
  obtain rfl := spells_nil.1 none
  subst text text'
  exact .tokens isKeyword opens (.cons kind isColon kind' .nil) closes

theorem productionSentence_of_spells (isName : IsName name)
    (printable : ∀ r ∈ e.roles, r.IsPrintable)
    (h : Spells ts (productionNode number name e.roles).sectionLexemes) :
    SectionSentence ts (.productions [(name, e)]) := by
  rw [sectionLexemes_productionNode] at h
  obtain ⟨keyword, us, rfl, isKeyword, h⟩ := h.exists_keyword (by decide)
  obtain ⟨opener, us, rfl, opens, h⟩ := h.exists_symbol (by decide)
  obtain ⟨t, us, rfl, kind, text, h⟩ := h.exists_cons isName.reads
  obtain ⟨colon, us, rfl, isColon, h⟩ := h.exists_symbol (by decide)
  obtain ⟨body, us, rfl, inner, h⟩ := h.exists_append
  obtain ⟨semicolon, us, rfl, isSemicolon, h⟩ := h.exists_symbol (by decide)
  obtain ⟨closer, us, rfl, closes, none⟩ := h.exists_symbol (by decide)
  obtain rfl := spells_nil.1 none
  subst text
  have rules : ProductionsSentence (t :: colon :: (body ++ [semicolon])) [(t.text, e)] :=
    .cons kind isColon (e.sentence_of_spells printable inner) isSemicolon .nil
  simpa using SectionSentence.productions isKeyword opens rules closes

end Sections

/-! ### Printed trees -/

theorem PrintableAfter.isWord {m : Mode} {c : Nat} {ts : List Tree} (h : PrintableAfter m c ts) :
    ∀ w ∈ ts.flatMap Tree.sectionLexemes, IsWord w := by
  have keyword : ∀ s ∈ Vocabulary.standard.keywords, IsWord s := fun _ => isWord_of_mem_keywords
  have symbol : ∀ s ∈ Vocabulary.punctuation, IsWord s := fun _ => isWord_of_mem_punctuation
  induction h with
  | nil => simp
  | grammar isName _ ih =>
    rw [List.flatMap_cons, List.forall_mem_append]
    refine ⟨?_, ih⟩
    simp only [Tree.leaf, Tree.sectionLexemes, List.forall_mem_cons]
    exact ⟨keyword _ (by decide), ⟨_, _, isName.reads⟩, symbol _ (by decide), by simp⟩
  | token isName isValue _ ih =>
    rw [List.flatMap_cons, List.forall_mem_append]
    refine ⟨?_, ih⟩
    simp only [Tree.leaf, Tree.sectionLexemes, List.forall_mem_cons]
    exact ⟨keyword _ (by decide), symbol _ (by decide), ⟨_, _, isName.reads⟩,
      symbol _ (by decide), ⟨_, _, isValue.reads⟩, symbol _ (by decide), by simp⟩
  | @production c name e ts isName printable _ _ ih =>
    rw [List.flatMap_cons, List.forall_mem_append]
    refine ⟨?_, ih⟩
    have body : ∀ w ∈ e.roles.flatMap Role.lexemes, IsWord w := by
      intro w mem
      obtain ⟨r, mem, mem'⟩ := List.mem_flatMap.1 mem
      exact (printable r mem).isWord w mem'
    simp only [sectionLexemes_productionNode, List.forall_mem_cons, List.forall_mem_append]
    exact ⟨keyword _ (by decide), symbol _ (by decide), ⟨_, _, isName.reads⟩,
      symbol _ (by decide), body, symbol _ (by decide), symbol _ (by decide), by simp⟩

/-- A printable tree is the tree of a description that is not nested too deeply, and the tokens of
what is printed are a sentence for it. -/
theorem PrintableAfter.exists_description {m : Mode} {c : Nat} {ts : List Tree}
    (h : PrintableAfter m c ts) :
    ∃ D : Description, D.nodes c = ts ∧ (∀ e ∈ D.expressions, m.AllowsFrom 0 e.depth) ∧
      ∀ us, Spells us (ts.flatMap Tree.sectionLexemes) → Sentence us D := by
  induction h with
  | nil =>
    refine ⟨[], rfl, by simp [Description.expressions], ?_⟩
    intro us h
    obtain rfl := spells_nil.1 h
    exact .nil
  | @grammar c name ts isName _ ih =>
    obtain ⟨D, nodes, allowed, sentence⟩ := ih
    refine ⟨.grammar name :: D, ?_, allowed, ?_⟩
    · exact congrArg (Tree.leaf (.grammar name) :: ·) nodes
    · intro us h
      obtain ⟨us, vs, rfl, first, others⟩ := h.exists_append
      exact .cons (grammarSentence_of_spells isName first) (sentence vs others)
  | @token c name pattern ts isName isValue _ ih =>
    obtain ⟨D, nodes, allowed, sentence⟩ := ih
    refine ⟨.tokens [(name, pattern)] :: D, ?_, allowed, ?_⟩
    · exact congrArg (Tree.leaf (.token name pattern) :: ·) nodes
    · intro us h
      obtain ⟨us, vs, rfl, first, others⟩ := h.exists_append
      exact .cons (tokenSentence_of_spells isName isValue first) (sentence vs others)
  | @production c name e ts isName printable shallow _ ih =>
    obtain ⟨D, nodes, allowed, sentence⟩ := ih
    refine ⟨.productions [(name, e)] :: D, ?_, ?_, ?_⟩
    · exact congrArg (productionNode (c + 1) name e.roles :: ·) nodes
    · exact List.forall_mem_cons.2 ⟨shallow, allowed⟩
    · intro us h
      obtain ⟨us, vs, rfl, first, others⟩ := h.exists_append
      exact .cons (productionSentence_of_spells isName printable first) (sentence vs others)

namespace Parser

/-- **A printed tree is parsed to itself**, by a strict parser and by a lenient one. -/
theorem parse_printed (tracing : Tracing) (m : Mode) (c : Nat) (t : Tree)
    (printable : t.IsPrintable m c) :
    ((ofSource { tracing, mode := m } t.printed).1.parse c).result = .ok t ∧
      ((ofSource { tracing, mode := m } t.printed).1.parse c).parser.tree = t := by
  obtain ⟨D, nodes, allowed, sentence⟩ := printable.children.exists_description
  have tree : D.tree c = t := by
    cases t with
    | node r ts =>
      obtain rfl : r = .root := printable.role_eq
      exact congrArg (Tree.node .root) nodes
  have spells : Spells (Vocabulary.standard.tokens false t.printed) t.lexemes :=
    spells_tokens printable.children.isWord
  have parsed := parse_of_sentence (s := { tracing, mode := m }) (sentence _ spells) allowed
    t.printed c
  rw [tree] at parsed
  exact ⟨parsed.1, parsed.2.1⟩

/-- The expression `{ opt-list | "it's /* {" } {: 'say "|"' :}`. -/
def quotedExpression : Expression :=
  .one (.more
    (.enclosed .repetition
      (.more (.one (.nonterminal "opt-list")) (.one (.one (.terminal "it's /* \x7b")))))
    (.one (.action "say \"|\"")))

/-- A tree with values that hold quotes, brackets and comment marks. -/
def quotedTree : Tree :=
  .node .root [.leaf (.grammar "g"), .leaf (.token "id" "\\\""),
    productionNode 1 "S" quotedExpression.roles]

/-- The text that is printed for this tree, and the parse of the text by a lenient parser. -/
theorem parse_printed_quotedTree :
    quotedTree.printed =
        "grammar g ; tokens \x7b id : \"\\\"\" \x7d productions \x7b S : \x7b opt-list | "
          ++ "\"it's /* \x7b\" \x7d \x7b: 'say \"|\"' :\x7d ; \x7d" ∧
      ((ofSource {} quotedTree.printed).1.parse 0).result = .ok quotedTree := by
  have name : ∀ s : String, (0 < identifierExtent s.toList ∧
      identifierExtent s.toList = s.toList.length) ∧ s ∉ Vocabulary.standard.keywords → IsName s :=
    fun s h => ⟨isIdentifier_iff.2 h.1, h.2⟩
  have value : ∀ s : String,
      isLiteralBody '"' s.toList ∨ isLiteralBody '\'' s.toList → IsValue s :=
    fun s h => h.imp (isLiteralBody_iff (.inl rfl)).1 (isLiteralBody_iff (.inr rfl)).1
  have body : ∀ r ∈ quotedExpression.roles, r.IsPrintable := by
    have option : IsName "opt-list" := name _ (by decide)
    have text : IsValue "it's /* \x7b" := value _ (by decide +kernel)
    have code : IsValue "say \"|\"" := value _ (by decide +kernel)
    simp [quotedExpression, Expression.roles, Term.roles, Factor.roles, Role.IsPrintable, option,
      text, code]
  have shallow : ({} : Mode).AllowsFrom 0 quotedExpression.depth :=
    .of_le rfl (by decide)
  have printable : quotedTree.IsPrintable {} 0 :=
    ⟨rfl, .grammar (name _ (by decide)) (.token (name _ (by decide)) (value _ (by decide +kernel))
      (.production (name _ (by decide)) body shallow .nil))⟩
  exact ⟨by decide +kernel, (parse_printed {} {} 0 quotedTree printable).1⟩

end Parser

end GrammarNotation
