import GrammarNotation.Proofs.Lexeme.Shapes
import GrammarNotation.Token.Source

/-!
# Words with blanks between them

A word is a text that is cut as one lexeme whenever nothing or a blank stands behind it. Words that
are written in a row with one blank between them are cut into these words again, so the tokens of
the whole text are the tokens of the words.

## Main definitions

- `Vocabulary.CutsWhole` — the text is cut as one lexeme of a class
- `Vocabulary.Reads` — the text is a word, and stands for a token of a class with a text
- `Vocabulary.tokenOf` — the token that a word stands for

## Main statements

- `Vocabulary.map_unplaced_tokens_join` — the tokens of words with blanks between them
- `reads_identifier`, `reads_keyword`, `reads_literalLexeme`, `reads_punctuation` — the words of
  descriptions
-/

namespace GrammarNotation

/-! ### Classes that do not start with a character -/

section FirstCharacter

variable {c : Char} (cs : List Char)

theorem runLength_eq_zero {p : Char → Bool} (h : p c = false) : runLength p (c :: cs) = 0 := by
  simp [runLength, h]

theorem commentExtent_eq_zero (h : c ≠ '/') : commentExtent (c :: cs) = 0 := by
  simp [commentExtent.eq_def, h]

theorem literalExtent_eq_zero (h : ¬ IsQuote c) : literalExtent (c :: cs) = 0 := by
  rw [literalExtent]
  exact if_neg h

theorem numberExtent_eq_zero (h : c.isDigit = false) : numberExtent (c :: cs) = 0 := by
  rw [numberExtent, runLength_eq_zero cs h]
  rfl

theorem identifierExtent_eq_zero (h : isNameStart c = false) :
    identifierExtent (c :: cs) = 0 := by
  simp [identifierExtent, h]

end FirstCharacter

namespace Vocabulary

/-- The lexeme at the front of a text is of a class if none of higher precedence starts there. -/
theorem lexemeAt_append_of_extent {v : Vocabulary} {w rest : List Char} {k : TokenClass}
    {before after : List TokenClass} (order : precedence = before ++ k :: after)
    (none : ∀ k' ∈ before, v.extent k' (w ++ rest) = 0)
    (extent : v.extent k (w ++ rest) = w.length) (ne : w ≠ []) :
    v.lexemeAt (w ++ rest) = ⟨k, w⟩ := by
  have pos : 0 < w.length := List.length_pos_iff.2 ne
  have skipped : before.find? (fun k' => 0 < v.extent k' (w ++ rest)) = Option.none := by
    rw [List.find?_eq_none]
    intro k' mem
    simp [none k' mem]
  have classAt : v.classAt (w ++ rest) = k := by
    rw [Vocabulary.classAt, order, List.find?_append, skipped, List.find?_cons_of_pos]
    · rfl
    · simpa [extent] using pos
  rw [lexemeAt, classAt, extent, List.take_left]

/-! ### Words -/

/-- The text is cut as one lexeme of the class if nothing or a blank stands behind it. -/
structure CutsWhole (v : Vocabulary) (w : List Char) (k : TokenClass) : Prop where
  noSpace : ∃ c cs, w = c :: cs ∧ isSpaceChar c = false
  lexemeAt_append : ∀ rest, EndsWord rest → v.lexemeAt (w ++ rest) = ⟨k, w⟩
  /-- The lexeme becomes a token. -/
  isKept : (⟨k, w⟩ : Lexeme).isKept false

/-- The token that the first lexeme of a text stands for. -/
def tokenOf (v : Vocabulary) (w : String) : Token :=
  ((v.lexemeAt w.toList).toToken v.keywords .start).unplaced

/-- The text is a word that stands for a token of the class `k` with the text `s`. -/
structure Reads (v : Vocabulary) (w : String) (k : TokenClass) (s : String) : Prop where
  cutsWhole : ∃ k, v.CutsWhole w.toList k
  tokenOf_eq : v.tokenOf w = ⟨k, s, none⟩

section Words

variable {v : Vocabulary} {w rest : List Char} {k : TokenClass}

theorem CutsWhole.lexemeAt_self (h : v.CutsWhole w k) : v.lexemeAt w = ⟨k, w⟩ := by
  have whole := h.lexemeAt_append [] endsWord_nil
  rwa [List.append_nil] at whole

theorem CutsWhole.cut_append (h : v.CutsWhole w k) (ends : EndsWord rest) :
    v.cut (w ++ rest) = v.lexemeAt w :: v.cut rest := by
  have whole := h.lexemeAt_append rest ends
  rw [h.lexemeAt_self]
  obtain ⟨c, cs, rfl, -⟩ := h.noSpace
  exact cut_append (l := ⟨k, c :: cs⟩) (List.cons_ne_nil c cs) whole

theorem CutsWhole.tokenOf_eq {s : String} (h : v.CutsWhole s.toList k) :
    v.tokenOf s = ((⟨k, s.toList⟩ : Lexeme).toToken v.keywords .start).unplaced := by
  rw [tokenOf, h.lexemeAt_self]

/-- A single space character is cut on its own. -/
theorem cut_spaceChar {c : Char} (space : isSpaceChar c)
    (next : ∀ d ∈ rest.head?, isSpaceChar d = false) :
    v.cut (c :: rest) = ⟨.space, [c]⟩ :: v.cut rest := by
  have extent : v.extent .space ([c] ++ rest) = 1 := by
    cases rest with
    | nil => simp [Vocabulary.extent, runLength, space]
    | cons d rest => simp [Vocabulary.extent, runLength, space, next d rfl]
  have order : precedence = [] ++ .space :: precedence.tail := rfl
  have lexeme : v.lexemeAt ([c] ++ rest) = ⟨.space, [c]⟩ :=
    lexemeAt_append_of_extent order (by simp) extent (List.cons_ne_nil _ _)
  rw [List.singleton_append] at lexeme
  rw [cut_cons, lexeme]
  rfl

theorem CutsWhole.cut_blank (h : v.CutsWhole w k) (rest : List Char) :
    v.cut (' ' :: (w ++ rest)) = ⟨.space, [' ']⟩ :: v.cut (w ++ rest) := by
  obtain ⟨c, cs, rfl, noSpace⟩ := h.noSpace
  exact cut_spaceChar (by decide) fun d eq => Option.some.inj eq ▸ noSpace

theorem intercalate_blank_cons (w w' : List Char) (ws : List (List Char)) :
    [' '].intercalate (w :: w' :: ws) = w ++ ' ' :: [' '].intercalate (w' :: ws) := by
  simp [List.intercalate, List.intersperse]

theorem exists_intercalate_blank_eq (w : List Char) (ws : List (List Char)) :
    ∃ rest, [' '].intercalate (w :: ws) = w ++ rest := by
  cases ws with
  | nil => exact ⟨[], by simp [List.intercalate]⟩
  | cons w' ws => exact ⟨_, intercalate_blank_cons w w' ws⟩

/-- Words with blanks between them are cut into these words, blanks apart. -/
theorem filter_cut_intercalate {ws : List (List Char)} (h : ∀ w ∈ ws, ∃ k, v.CutsWhole w k) :
    (v.cut ([' '].intercalate ws)).filter (·.isKept false) = ws.map v.lexemeAt := by
  induction ws with
  | nil => rfl
  | cons w ws ih =>
    rw [List.forall_mem_cons] at h
    obtain ⟨⟨k, first⟩, others⟩ := h
    have kept : (v.lexemeAt w).isKept false := first.lexemeAt_self ▸ first.isKept
    cases ws with
    | nil =>
      have cut : v.cut w = [v.lexemeAt w] := by simpa using first.cut_append endsWord_nil
      simp [List.intercalate, cut, kept]
    | cons w' ws =>
      -- The blank ends the first word, and the next word ends the blank.
      obtain ⟨k', next⟩ := others w' List.mem_cons_self
      obtain ⟨rest, eq⟩ := exists_intercalate_blank_eq w' ws
      have dropped : (⟨.space, [' ']⟩ : Lexeme).isKept false = false := rfl
      calc (v.cut ([' '].intercalate (w :: w' :: ws))).filter (·.isKept false)
          = (v.lexemeAt w :: v.cut (' ' :: [' '].intercalate (w' :: ws))).filter
              (·.isKept false) := by
            rw [intercalate_blank_cons, first.cut_append (endsWord_blank _)]
        _ = v.lexemeAt w :: (v.cut ([' '].intercalate (w' :: ws))).filter (·.isKept false) := by
            rw [eq, next.cut_blank rest]
            simp [kept, dropped]
        _ = (w :: w' :: ws).map v.lexemeAt := by
            rw [ih others]
            rfl

/-- The places of lexemes have no part in the classes and the texts of their tokens. -/
theorem map_unplaced_tokens (v : Vocabulary) (keepComments : Bool) (source : String) :
    (v.tokens keepComments source).map Token.unplaced =
      ((v.cut source.toList).filter (·.isKept keepComments)).map
        fun l => (l.toToken v.keywords .start).unplaced := by
  have unplaced : (v.tokens keepComments source).map Token.unplaced =
      ((Lexeme.place .start (v.cut source.toList)).filter (·.2.isKept keepComments)).map
        ((fun l => (l.toToken v.keywords .start).unplaced) ∘ Prod.snd) := by
    rw [tokens, List.map_map]
    rfl
  rw [unplaced, ← List.map_map, Lexeme.map_snd_filter_place]

/-- **The tokens of words with blanks between them are the tokens of the words.** -/
theorem map_unplaced_tokens_join {ws : List String}
    (h : ∀ w ∈ ws, ∃ k, v.CutsWhole w.toList k) :
    (v.tokens false (String.ofList ([' '].intercalate (ws.map String.toList)))).map
      Token.unplaced = ws.map v.tokenOf := by
  have words : ∀ w ∈ ws.map String.toList, ∃ k, v.CutsWhole w k := by
    rw [List.forall_mem_map]
    exact h
  rw [map_unplaced_tokens, String.toList_ofList, filter_cut_intercalate words, List.map_map,
    List.map_map]
  rfl

end Words

/-! ### The words of descriptions -/

section Shapes

variable {v : Vocabulary} {s : String} {c : Char}

instance (quote : Char) : Decidable (IsQuote quote) :=
  inferInstanceAs (Decidable (_ ∨ _))

/-- Tells whether no lexeme but a symbol may start with the character. -/
def startsSymbol (c : Char) : Bool :=
  !isSpaceChar c && c != '/' && !decide (IsQuote c) && !c.isDigit && !isNameStart c

theorem not_isDigit_of_isNameStart (h : isNameStart c) : c.isDigit = false := by
  rw [Bool.eq_false_iff]
  intro digit
  have start : (decide ('A'.val ≤ c.val ∧ c.val ≤ 'Z'.val) ||
      (decide ('a'.val ≤ c.val) && decide (c.val ≤ 'z'.val)) || decide (c = 'ε')) = true := h
  have digit : (decide ('0'.val ≤ c.val) && decide (c.val ≤ '9'.val)) = true := digit
  simp only [Bool.or_eq_true, Bool.and_eq_true, decide_eq_true_eq, UInt32.le_iff_toNat_le]
    at start digit
  rcases start with (⟨h, _⟩ | ⟨h, _⟩) | rfl
  · simp at h digit
    omega
  · simp at h digit
    omega
  · simp at digit

theorem ne_of_isNameStart {d : Char} (h : isNameStart c) (other : isNameStart d = false) :
    c ≠ d := by
  rintro rfl
  simp [h] at other

theorem not_isSpaceChar_of_isNameStart (h : isNameStart c) : isSpaceChar c = false := by
  rw [Bool.eq_false_iff]
  intro space
  simp only [isSpaceChar, Bool.or_eq_true, decide_eq_true_eq] at space
  rcases space with ((((rfl | rfl) | rfl) | rfl) | rfl) | rfl <;> exact absurd h (by decide)

theorem cutsWhole_of_isIdentifier {w : List Char} (h : IsIdentifier w) :
    v.CutsWhole w .identifier := by
  obtain ⟨c, cs, rfl, start⟩ : ∃ c cs, w = c :: cs ∧ isNameStart c := by
    obtain ⟨c, first, groups, rfl, start, -⟩ := h
    exact ⟨c, _, rfl, start⟩
  have noSpace := not_isSpaceChar_of_isNameStart start
  have noQuote : ¬ IsQuote c := by
    rintro (rfl | rfl) <;> exact absurd start (by decide)
  refine ⟨⟨c, cs, rfl, noSpace⟩, ?_, rfl⟩
  intro rest ends
  have order : precedence = [.space, .comment, .literal, .number] ++ .identifier ::
    [.symbol, .invalid] := rfl
  refine lexemeAt_append_of_extent order ?_ (h.identifierExtent_append ends)
    (List.cons_ne_nil c cs)
  simp only [List.forall_mem_cons, List.cons_append, extent]
  exact ⟨runLength_eq_zero _ noSpace, commentExtent_eq_zero _ (ne_of_isNameStart start (by decide)),
    literalExtent_eq_zero _ noQuote, numberExtent_eq_zero _ (not_isDigit_of_isNameStart start),
    by simp⟩

theorem reads_identifier (h : IsIdentifier s.toList) (noKeyword : s ∉ v.keywords) :
    v.Reads s .identifier s := by
  have whole : v.CutsWhole s.toList .identifier := cutsWhole_of_isIdentifier h
  refine ⟨⟨_, whole⟩, ?_⟩
  simp [whole.tokenOf_eq, Lexeme.toToken, Lexeme.content, Token.unplaced, noKeyword]

theorem reads_keyword (h : IsIdentifier s.toList) (isKeyword : s ∈ v.keywords) :
    v.Reads s .keyword s := by
  have whole : v.CutsWhole s.toList .identifier := cutsWhole_of_isIdentifier h
  refine ⟨⟨_, whole⟩, ?_⟩
  simp [whole.tokenOf_eq, Lexeme.toToken, Lexeme.content, Token.unplaced, isKeyword]

theorem cutsWhole_of_literalBody {quote : Char} {body : List Char} (h : LiteralBody quote body)
    (isQuote : IsQuote quote) : v.CutsWhole (quote :: (body ++ [quote])) .literal := by
  have noSpace : isSpaceChar quote = false := by rcases isQuote with rfl | rfl <;> decide
  have noSlash : quote ≠ '/' := by rcases isQuote with rfl | rfl <;> decide
  refine ⟨⟨quote, _, rfl, noSpace⟩, ?_, rfl⟩
  intro rest _
  have order : precedence = [.space, .comment] ++ .literal ::
    [.number, .identifier, .symbol, .invalid] := rfl
  refine lexemeAt_append_of_extent order ?_ ?_ (List.cons_ne_nil _ _)
  · simp only [List.forall_mem_cons, List.cons_append, extent]
    exact ⟨runLength_eq_zero _ noSpace, commentExtent_eq_zero _ noSlash, by simp⟩
  · simpa [extent] using h.literalExtent_append isQuote rest

/-- A value in quotes is a word if it may stand between quotes of one kind. -/
theorem reads_literalLexeme {value : String}
    (h : LiteralBody '"' value.toList ∨ LiteralBody '\'' value.toList) :
    v.Reads (literalLexeme value) .literal value := by
  obtain ⟨quote, isQuote, body, eq⟩ : ∃ quote, IsQuote quote ∧ LiteralBody quote value.toList ∧
      (literalLexeme value).toList = quote :: (value.toList ++ [quote]) := by
    have double : IsQuote '"' := .inl rfl
    rw [literalLexeme, String.toList_ofList]
    by_cases fits : isLiteralBody '"' value.toList
    · exact ⟨'"', double, (isLiteralBody_iff double).1 fits, by simp [fits]⟩
    · have single : LiteralBody '\'' value.toList := by
        apply h.resolve_left
        intro body
        exact fits ((isLiteralBody_iff double).2 body)
      exact ⟨'\'', .inr rfl, single, by simp [fits]⟩
  have whole : v.CutsWhole (literalLexeme value).toList .literal :=
    eq ▸ cutsWhole_of_literalBody body isQuote
  refine ⟨⟨_, whole⟩, ?_⟩
  simp [whole.tokenOf_eq, Lexeme.toToken, Lexeme.content, Token.unplaced, eq]

/-- A symbol is a word if nothing but symbols start like it, and no symbol holds a blank. -/
theorem reads_symbol (mem : s ∈ v.symbols) (noBlank : ∀ r ∈ v.symbols, ' ' ∉ r.toList)
    (start : s.toList.head?.any startsSymbol) : v.Reads s .symbol s := by
  obtain ⟨c, cs, text, start⟩ : ∃ c cs, s.toList = c :: cs ∧ startsSymbol c := by
    cases text : s.toList with
    | nil => simp [text] at start
    | cons c cs => exact ⟨c, cs, rfl, by simpa [text] using start⟩
  simp only [startsSymbol, Bool.and_eq_true, Bool.not_eq_true', bne_iff_ne, decide_eq_false_iff_not]
    at start
  obtain ⟨⟨⟨⟨noSpace, noSlash⟩, noQuote⟩, noDigit⟩, noName⟩ := start
  have whole : v.CutsWhole s.toList .symbol := by
    refine ⟨⟨c, cs, text, noSpace⟩, ?_, rfl⟩
    intro rest ends
    have order : precedence = [.space, .comment, .literal, .number, .identifier] ++ .symbol ::
      [.invalid] := rfl
    refine lexemeAt_append_of_extent order ?_ (symbolExtent_append mem noBlank ends)
      (text ▸ List.cons_ne_nil c cs)
    simp only [text, List.forall_mem_cons, List.cons_append, extent]
    exact ⟨runLength_eq_zero _ noSpace, commentExtent_eq_zero _ noSlash,
      literalExtent_eq_zero _ noQuote, numberExtent_eq_zero _ noDigit,
      identifierExtent_eq_zero _ noName, by simp⟩
  refine ⟨⟨_, whole⟩, ?_⟩
  simp [whole.tokenOf_eq, Lexeme.toToken, Lexeme.content, Token.unplaced]

end Shapes

/-- The symbols that descriptions are made of. -/
def punctuation : List String :=
  [";", ":", "|", "[", "]", "(", ")", "\x7b", "\x7d", "\x7b:", ":\x7d"]

theorem reads_punctuation : ∀ s ∈ punctuation, standard.Reads s .symbol s := by
  have noBlank : ∀ r ∈ standard.symbols, ' ' ∉ r.toList := by decide
  have key : ∀ s ∈ punctuation, s ∈ standard.symbols ∧ s.toList.head?.any startsSymbol := by
    decide
  intro s mem
  exact reads_symbol (key s mem).1 noBlank (key s mem).2

theorem reads_standardKeyword : ∀ s ∈ standard.keywords, standard.Reads s .keyword s := by
  have key : ∀ s ∈ standard.keywords, 0 < identifierExtent s.toList ∧
      identifierExtent s.toList = s.toList.length := by decide
  intro s mem
  exact reads_keyword (isIdentifier_iff.2 (key s mem)) mem

end Vocabulary

end GrammarNotation
