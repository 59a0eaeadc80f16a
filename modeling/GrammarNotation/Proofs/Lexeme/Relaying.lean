import GrammarNotation.Proofs.Lexeme.Stability
import Mathlib.Data.List.Basic

/-!
# One token on each line

The tokens of a source, each written as it stands there and on a line of its own, are a source with
the same tokens: the spaces and the comments between tokens, and the lack of them, have no part in
what the tokens are.

## Main definitions

- `Token.writtenIn` — a token as it stands in its source
- `Vocabulary.relaid` — the tokens of a source, one on each line

## Main statements

- `Vocabulary.cut_induction` — a text lexeme by lexeme
- `Vocabulary.filter_cut_onLines` — lexemes on lines of their own are cut into the same lexemes
- `Vocabulary.map_unplaced_tokens_relaid` — the tokens are the same, but for their places
-/

namespace GrammarNotation

/-- A token as it stands in its source: a literal is between two quotes of the kind that stands at
its place. -/
def Token.writtenIn (source : String) (t : Token) : List Char :=
  if t.kind = .literal then
    let quote := (t.position.bind fun p => source.toList[p.index.toNat]?).toList
    quote ++ t.text.toList ++ quote
  else t.text.toList

/-- The tokens of a source as they stand there, each on a line of its own. -/
def Vocabulary.relaid (v : Vocabulary) (keepComments : Bool) (source : String) : String :=
  String.ofList ((v.tokens keepComments source).flatMap fun t => t.writtenIn source ++ ['\n'])

/-- Lexemes, each on a line of its own. -/
def Lexeme.onLines (ls : List Lexeme) : List Char :=
  ls.flatMap fun l => l.text ++ ['\n']

namespace Vocabulary

variable {v : Vocabulary} {l : Lexeme} {cs rest : List Char}

/-! ### Lexeme by lexeme -/

/-- What holds of the empty text, and of a text if it holds of what follows the first lexeme, holds
of every text. -/
theorem cut_induction {motive : List Char → Prop} (nil : motive [])
    (cons : ∀ l rest, l.text ≠ [] → v.lexemeAt (l.text ++ rest) = l →
      v.cut (l.text ++ rest) = l :: v.cut rest → motive rest → motive (l.text ++ rest))
    (cs : List Char) : motive cs := by
  induction n : cs.length using Nat.strongRecOn generalizing cs with
  | _ n ih =>
    cases cs with
    | nil => exact nil
    | cons c cs =>
      obtain ⟨l, eq⟩ : ∃ l, l = v.lexemeAt (c :: cs) := ⟨_, rfl⟩
      have ne : l.text ≠ [] := eq ▸ v.text_lexemeAt_ne_nil c cs
      have pos := List.length_pos_iff.2 ne
      have split : l.text ++ (c :: cs).drop l.text.length = c :: cs := by
        rw [eq, length_text_lexemeAt]
        exact List.take_append_drop _ _
      have first : v.cut (c :: cs) = l :: v.cut ((c :: cs).drop l.text.length) := by
        rw [cut_cons, ← eq]
      have motive_rest := ih _ (by
        rw [← n, List.length_drop, List.length_cons]
        omega) ((c :: cs).drop l.text.length) rfl
      have motive_cs := cons l _ ne (by rw [split, eq]) (by rw [split, first]) motive_rest
      rwa [split] at motive_cs

/-- A lexeme is one in front of some text. -/
theorem exists_lexemeAt_of_mem_cut (h : l ∈ v.cut cs) :
    ∃ rest, v.lexemeAt (l.text ++ rest) = l := by
  induction cs using cut_induction (v := v) with
  | nil => cases h
  | cons l' rest _ lexeme cut ih =>
    rw [cut, List.mem_cons] at h
    rcases h with rfl | h
    · exact ⟨rest, lexeme⟩
    · exact ih h

/-- A lexeme that becomes a token does not begin with a space. -/
theorem exists_text_eq_cons {keepComments : Bool} (lexeme : v.lexemeAt (l.text ++ rest) = l)
    (ne : l.text ≠ []) (kept : l.isKept keepComments) :
    ∃ c w, l.text = c :: w ∧ isSpaceChar c = false := by
  obtain ⟨c, w, eq⟩ := List.exists_cons_of_ne_nil ne
  refine ⟨c, w, eq, ?_⟩
  have other : l.kind ≠ .space := by
    intro kind
    simp [Lexeme.isKept, kind] at kept
  obtain ⟨before, after, order, none, -⟩ := exists_precedence_of_lexemeAt lexeme ne
  have first : TokenClass.space ∈ before := by
    cases before with
    | nil => exact absurd (List.cons.inj order).1.symm other
    | cons k before => exact (List.cons.inj order).1 ▸ List.mem_cons_self
  have extent : runLength isSpaceChar (l.text ++ rest) = 0 := none .space first
  rw [eq] at extent
  cases space : isSpaceChar c with
  | false => rfl
  | true => simp [runLength, space] at extent

/-- A literal stands between two like quotes. -/
theorem exists_quote_of_literal {w : List Char} (ne : w ≠ [])
    (lexeme : v.lexemeAt (w ++ rest) = ⟨.literal, w⟩) :
    ∃ quote body, w = quote :: (body ++ [quote]) ∧ LiteralBody quote body := by
  obtain ⟨-, -, -, -, extent⟩ := exists_precedence_of_lexemeAt lexeme ne
  obtain ⟨c, w, rfl⟩ := List.exists_cons_of_ne_nil ne
  have extent : literalExtent (c :: (w ++ rest)) = w.length + 1 := extent
  by_cases isQuote : IsQuote c
  · have opens : c = '"' ∨ c = '\'' := isQuote
    rw [literalExtent, if_pos opens] at extent
    cases through : throughQuote? c (w ++ rest) with
    | none => simp [through] at extent
    | some n =>
      obtain ⟨body, behind, eq, rfl, isBody⟩ := exists_body_of_throughQuote? through
      rw [through] at extent
      have length : w.length = (body ++ [c]).length := by simpa using (Nat.succ.inj extent).symm
      have eq' : w ++ rest = (body ++ [c]) ++ behind := by simpa using eq
      exact ⟨c, body, congrArg (c :: ·) (List.append_inj eq' length).1, isBody⟩
  · rw [literalExtent_eq_zero _ isQuote] at extent
    cases extent

/-! ### Tokens as they stand in their source -/

/-- A lexeme stands at its place. -/
theorem exists_eq_append_of_mem_place {p : Position}
    (mem : (p, l) ∈ Lexeme.place .start (v.cut cs)) :
    ∃ before after, cs = before ++ (l.text ++ after) ∧ p.index = before.length := by
  obtain ⟨front, back, placed⟩ := List.append_of_mem mem
  obtain ⟨cut, place⟩ := Lexeme.eq_append_of_place_eq placed
  refine ⟨_, _, eq_append_of_cut_eq cut, ?_⟩
  rw [place, Position.index_advance]
  exact Int.zero_add _

theorem writtenIn_toToken {source : String} {p : Position}
    (mem : (p, l) ∈ Lexeme.place .start (v.cut source.toList)) :
    (l.toToken v.keywords p).writtenIn source = l.text := by
  have memCut : l ∈ v.cut source.toList := Lexeme.mem_of_mem_place mem
  obtain ⟨k, w⟩ := l
  by_cases kind : k = .literal
  · subst kind
    obtain ⟨rest, lexeme⟩ := exists_lexemeAt_of_mem_cut memCut
    obtain ⟨quote, body, rfl, -⟩ := exists_quote_of_literal (text_ne_nil_of_mem_cut memCut) lexeme
    obtain ⟨before, after, eq, index⟩ := exists_eq_append_of_mem_place mem
    have first : source.toList[p.index.toNat]? = some quote := by
      rw [index, eq, Int.toNat_natCast, List.getElem?_append_right (Nat.le_refl _), Nat.sub_self]
      rfl
    simp [Token.writtenIn, Lexeme.toToken, Lexeme.content, first]
  · have other : (Lexeme.toToken v.keywords p ⟨k, w⟩).kind ≠ .literal := by
      simp only [Lexeme.toToken]
      split
      · decide
      · exact kind
    rw [Token.writtenIn, if_neg other]
    simp [Lexeme.content, kind]

theorem toList_relaid (v : Vocabulary) (keepComments : Bool) (source : String) :
    (v.relaid keepComments source).toList =
      Lexeme.onLines ((v.cut source.toList).filter (·.isKept keepComments)) := by
  rw [relaid, String.toList_ofList, tokens, List.flatMap_map, Lexeme.onLines,
    ← Lexeme.map_snd_filter_place keepComments .start, List.flatMap_map]
  refine List.flatMap_congr ?_
  rintro ⟨p, l⟩ mem
  rw [writtenIn_toToken (List.mem_filter.1 mem).1]

/-! ### Lines -/

theorem onLines_cons (l : Lexeme) (ls : List Lexeme) :
    Lexeme.onLines (l :: ls) = l.text ++ '\n' :: Lexeme.onLines ls := by
  simp [Lexeme.onLines]

/-- A line begins with no space. -/
theorem head?_onLines (v : Vocabulary) (keepComments : Bool) (cs : List Char) :
    ∀ c ∈ (Lexeme.onLines ((v.cut cs).filter (·.isKept keepComments))).head?,
      isSpaceChar c = false := by
  cases lines : (v.cut cs).filter (·.isKept keepComments) with
  | nil => exact fun c eq => nomatch eq
  | cons l ls =>
    have mem : l ∈ (v.cut cs).filter (·.isKept keepComments) := lines ▸ List.mem_cons_self
    obtain ⟨memCut, kept⟩ := List.mem_filter.1 mem
    obtain ⟨rest, lexeme⟩ := exists_lexemeAt_of_mem_cut memCut
    obtain ⟨c, w, text, noSpace⟩ :=
      exists_text_eq_cons lexeme (text_ne_nil_of_mem_cut memCut) kept
    rw [onLines_cons, text]
    intro d eq
    exact Option.some.inj eq ▸ noSpace

theorem hasClose_onLines {ls : List Lexeme} (h : HasClose (Lexeme.onLines ls)) :
    ∃ l ∈ ls, HasClose l.text := by
  induction ls with
  | nil => simp [HasClose, Lexeme.onLines] at h
  | cons l ls ih =>
    rw [onLines_cons] at h
    rcases infix_of_infix_append_cons (by decide) h with inside | behind
    · exact ⟨l, List.mem_cons_self, inside⟩
    · obtain ⟨l', mem, isClosed⟩ := ih behind
      exact ⟨l', List.mem_cons_of_mem l mem, isClosed⟩

/-- Lexemes on lines close no comments that the text that they were cut from does not close. -/
theorem HasClose.of_onLines {p : Lexeme → Bool}
    (h : HasClose (Lexeme.onLines ((v.cut cs).filter p))) : HasClose cs := by
  obtain ⟨l, mem, isClosed⟩ := hasClose_onLines h
  have inside : l.text <:+: ((v.cut cs).map Lexeme.text).flatten :=
    List.infix_of_mem_flatten (List.mem_map_of_mem (List.mem_filter.1 mem).1)
  rw [flatten_cut] at inside
  exact List.IsInfix.trans isClosed inside

theorem cut_append_newline (plain : ∀ s ∈ v.symbols, '\n' ∉ s.toList) {c : Char}
    {w more : List Char} (noSpace : isSpaceChar c = false) (text : l.text = c :: w)
    (close : HasClose more → HasClose rest) (lexeme : v.lexemeAt (l.text ++ rest) = l) :
    v.cut (l.text ++ '\n' :: more) = l :: v.cut ('\n' :: more) := by
  obtain ⟨k, w'⟩ := l
  obtain rfl : w' = c :: w := text
  exact cut_append (List.cons_ne_nil c w) (lexemeAt_newline plain noSpace close lexeme)

/-- **Lexemes on lines of their own are cut into the same lexemes**, the line ends apart. -/
theorem filter_cut_onLines (plain : ∀ s ∈ v.symbols, '\n' ∉ s.toList) (keepComments : Bool)
    (cs : List Char) :
    (v.cut (Lexeme.onLines ((v.cut cs).filter (·.isKept keepComments)))).filter
        (·.isKept keepComments) =
      (v.cut cs).filter (·.isKept keepComments) := by
  induction cs using cut_induction (v := v) with
  | nil => rfl
  | cons l rest ne lexeme cut ih =>
    rw [cut]
    by_cases kept : l.isKept keepComments
    · obtain ⟨c, w, text, noSpace⟩ := exists_text_eq_cons lexeme ne kept
      have newline : v.cut ('\n' :: Lexeme.onLines ((v.cut rest).filter (·.isKept keepComments))) =
          ⟨.space, ['\n']⟩ :: _ :=
        cut_spaceChar (by decide) (head?_onLines v keepComments rest)
      have dropped : (⟨.space, ['\n']⟩ : Lexeme).isKept keepComments = false := rfl
      rw [List.filter_cons_of_pos kept, onLines_cons,
        cut_append_newline plain noSpace text HasClose.of_onLines lexeme, newline,
        List.filter_cons_of_pos kept, List.filter_cons_of_neg (by simp [dropped]), ih]
    · rw [List.filter_cons_of_neg kept]
      exact ih

/-- **The tokens of a source are those of its tokens on lines of their own**, but for their
places. -/
theorem map_unplaced_tokens_relaid (plain : ∀ s ∈ v.symbols, '\n' ∉ s.toList)
    (keepComments : Bool) (source : String) :
    (v.tokens keepComments (v.relaid keepComments source)).map Token.unplaced =
      (v.tokens keepComments source).map Token.unplaced := by
  rw [map_unplaced_tokens, map_unplaced_tokens, toList_relaid, filter_cut_onLines plain]

end Vocabulary

end GrammarNotation
