import GrammarNotation.Proofs.Lexeme.Relaying

/-!
# Characters that tokens do not hold

Whatever the vocabulary is, the tokens that go to the tree stay on one line, and the text of an
identifier has no comma.

## Main definitions

- `Token.IsLegible` — the token has no character by which it could be taken for more than one text

## Main statements

- `Vocabulary.isLegible_of_mem_tokens` — the tokens of every source are legible
-/

namespace GrammarNotation

/-- **Neither an identifier nor a literal holds a newline**, and an identifier holds no comma. -/
structure Token.IsLegible (t : Token) : Prop where
  identifier : t.kind = .identifier → '\n' ∉ t.text.toList ∧ ',' ∉ t.text.toList
  literal : t.kind = .literal → '\n' ∉ t.text.toList

section Identifiers

variable {c : Char} {cs : List Char}

theorem isNameChar_of_isNameStart (h : isNameStart c) : isNameChar c := by
  simp only [isNameStart, isNameChar, Char.isAlphanum, Bool.or_eq_true, decide_eq_true_eq] at h ⊢
  rcases h with h | h
  · exact .inl (.inl (.inl h))
  · exact .inr h

theorem isNameChar_of_mem_take_nameRest (h : c ∈ cs.take (nameRest cs)) :
    isNameChar c ∨ c = '-' := by
  induction cs with
  | nil => cases h
  | cons d cs ih =>
    rw [nameRest] at h
    split at h
    · next isName =>
      rcases List.mem_cons.1 h with rfl | h
      · exact .inl isName
      · exact ih h
    · split at h
      · next hyphen =>
        rcases List.mem_cons.1 h with rfl | h
        · exact .inr hyphen.1
        · exact ih h
      · cases h

/-- An identifier consists of name characters and hyphens. -/
theorem isNameChar_of_mem_take_identifierExtent (h : c ∈ cs.take (identifierExtent cs)) :
    isNameChar c ∨ c = '-' := by
  cases cs with
  | nil => cases h
  | cons d cs =>
    rw [identifierExtent] at h
    split at h
    · next start =>
      rcases List.mem_cons.1 h with rfl | h
      · exact .inl (isNameChar_of_isNameStart start)
      · exact isNameChar_of_mem_take_nameRest h
    · cases h

end Identifiers

namespace Vocabulary

variable {v : Vocabulary} {w rest : List Char}

theorem notMem_of_identifier (lexeme : v.lexemeAt (w ++ rest) = ⟨.identifier, w⟩) {c : Char}
    (noName : isNameChar c = false) (noHyphen : c ≠ '-') : c ∉ w := by
  intro mem
  obtain ⟨kind, text⟩ := Lexeme.mk.inj lexeme
  rw [kind] at text
  rw [← text] at mem
  rcases isNameChar_of_mem_take_identifierExtent mem with isName | hyphen
  · rw [noName] at isName
    cases isName
  · exact noHyphen hyphen

/-- **The tokens of every source are legible**, whatever counts as a symbol or a keyword. -/
theorem isLegible_of_mem_tokens {keepComments : Bool} {source : String} {t : Token}
    (h : t ∈ v.tokens keepComments source) : t.IsLegible := by
  obtain ⟨⟨p, l⟩, mem, rfl⟩ := List.mem_map.1 h
  have memCut : l ∈ v.cut source.toList := Lexeme.mem_of_mem_place (List.mem_filter.1 mem).1
  obtain ⟨rest, lexeme⟩ := exists_lexemeAt_of_mem_cut memCut
  have ne := text_ne_nil_of_mem_cut memCut
  obtain ⟨k, w⟩ := l
  -- A keyword was an identifier, and all other tokens are of the class of their lexeme.
  have same : ∀ k', k' ≠ .keyword → (Lexeme.toToken v.keywords p ⟨k, w⟩).kind = k' → k = k' := by
    intro k' other kind
    simp only [Lexeme.toToken] at kind
    split at kind
    · exact absurd kind.symm other
    · exact kind
  constructor
  · intro kind
    obtain rfl := same _ (by decide) kind
    have text : (Lexeme.toToken v.keywords p ⟨.identifier, w⟩).text.toList = w := by
      simp [Lexeme.content]
    rw [text]
    exact ⟨notMem_of_identifier lexeme (by decide) (by decide),
      notMem_of_identifier lexeme (by decide) (by decide)⟩
  · intro kind
    obtain rfl := same _ (by decide) kind
    obtain ⟨quote, body, rfl, isBody⟩ := exists_quote_of_literal ne lexeme
    have text : (Lexeme.toToken v.keywords p ⟨.literal, quote :: (body ++ [quote])⟩).text.toList =
        body := by
      simp [Lexeme.content]
    rw [text]
    exact isBody.newline_notMem

end Vocabulary

end GrammarNotation
