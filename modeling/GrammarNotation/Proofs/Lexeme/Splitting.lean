import GrammarNotation.Proofs.Lexeme.Forms
import GrammarNotation.Proofs.Lexeme.Relaying
import Mathlib.Data.List.Forall2

/-!
# How a source is split

A text falls into lexemes in one way only, if each of them is of the first class of which a text
stands there, and is the longest text of this class. This says what the lexemes of a source are
without saying how they are found, and the tokens are read off the lexemes one by one.

## Main definitions

- `Vocabulary.Begins` — a lexeme that may stand at the front of a text
- `Vocabulary.Cuts` — lexemes into which a text falls
- `Vocabulary.Denotes` — the class and the text of the token that a lexeme stands for

## Main statements

- `Vocabulary.cuts_iff` — a text falls into the lexemes into which it is cut, and into no others
- `Vocabulary.cuts_source` — the lexemes and the tokens of every source
-/

namespace GrammarNotation

namespace Vocabulary

variable {v : Vocabulary} {cs : List Char} {l : Lexeme} {ls : List Lexeme}

/-! ### The lexeme at the front -/

/-- **The lexeme stands at the front of the text**: it is the longest text of its class there, and
no text of a class that is tried before stands there. -/
structure Begins (v : Vocabulary) (cs : List Char) (l : Lexeme) : Prop where
  isLongest : v.IsLongest l.kind l.text cs
  isFirst : ∃ before after, precedence = before ++ l.kind :: after ∧
    ∀ k ∈ before, ∀ w, w <+: cs → ¬ v.HasForm k w

theorem begins_of_lexemeAt (ne : l.text ≠ []) (h : v.lexemeAt cs = l) : v.Begins cs l := by
  obtain ⟨k, w⟩ := l
  obtain ⟨before, after, order, none, extent⟩ := exists_precedence_of_lexemeAt h ne
  have text : w = cs.take (v.extent k cs) := by
    obtain ⟨classAt, text⟩ := Lexeme.mk.inj h
    rw [← classAt, text]
  exact ⟨isLongest_iff.2 ⟨ne, text⟩, before, after, order,
    fun k' mem => extent_eq_zero_iff.1 (none k' mem)⟩

theorem Begins.lexemeAt_eq (h : v.Begins cs l) : v.lexemeAt cs = l := by
  obtain ⟨k, w⟩ := l
  obtain ⟨isLongest, before, after, order, none⟩ := h
  obtain ⟨rest, rfl⟩ : ∃ rest, w ++ rest = cs := isLongest.isPrefix
  obtain ⟨ne, text⟩ := isLongest_iff.1 isLongest
  refine lexemeAt_append_of_extent order (fun k' mem => extent_eq_zero_iff.2 (none k' mem)) ?_ ne
  have length := congrArg List.length text
  rw [List.length_take, Nat.min_eq_left (v.extent_le_length _ _)] at length
  exact length.symm

/-! ### All lexemes -/

/-- **The text falls into the lexemes**: put together they are the text, and each of them stands at
the front of what is left of the text where it begins. -/
structure Cuts (v : Vocabulary) (cs : List Char) (ls : List Lexeme) : Prop where
  flatten_eq : (ls.map Lexeme.text).flatten = cs
  text_ne_nil : ∀ l ∈ ls, l.text ≠ []
  begins : ∀ l after, l :: after <:+ ls → v.Begins ((l :: after).map Lexeme.text).flatten l

theorem cuts_cut (v : Vocabulary) (cs : List Char) : v.Cuts cs (v.cut cs) := by
  refine ⟨v.flatten_cut cs, fun l mem => text_ne_nil_of_mem_cut mem, ?_⟩
  induction cs using cut_induction (v := v) with
  | nil =>
    intro l after behind
    simp at behind
  | cons l rest ne lexeme cut ih =>
    rw [cut]
    intro l' after behind
    rcases List.suffix_cons_iff.1 behind with eq | behind
    · obtain ⟨rfl, rfl⟩ := List.cons.inj eq
      rw [List.map_cons, List.flatten_cons, flatten_cut]
      exact begins_of_lexemeAt ne lexeme
    · exact ih l' after behind

theorem Cuts.eq_cut (h : v.Cuts cs ls) : ls = v.cut cs := by
  induction ls generalizing cs with
  | nil =>
    obtain rfl : [] = cs := h.flatten_eq
    rfl
  | cons l ls ih =>
    have text : l.text ++ (ls.map Lexeme.text).flatten = cs := h.flatten_eq
    have first : v.Begins (l.text ++ (ls.map Lexeme.text).flatten) l :=
      h.begins l ls (List.suffix_refl _)
    have others : v.Cuts (ls.map Lexeme.text).flatten ls :=
      ⟨rfl, fun l' mem => h.text_ne_nil l' (List.mem_cons_of_mem l mem),
        fun l' after behind => h.begins l' after (behind.trans (List.suffix_cons l ls))⟩
    rw [← text, cut_append (h.text_ne_nil l List.mem_cons_self) first.lexemeAt_eq, ← ih others]

/-- **A text falls into the lexemes into which it is cut**, and into no others. -/
theorem cuts_iff : v.Cuts cs ls ↔ ls = v.cut cs := by
  constructor
  · exact Cuts.eq_cut
  · rintro rfl
    exact v.cuts_cut cs

/-! ### Tokens -/

/-- **The class and the text of the token that a lexeme stands for**: a literal loses its quotes,
and an identifier is a keyword if it is one of the vocabulary. All else stays as it is. -/
inductive Denotes (v : Vocabulary) : Lexeme → TokenClass → String → Prop
  | literal {quote : Char} {body : List Char} :
      Denotes v ⟨.literal, quote :: (body ++ [quote])⟩ .literal (String.ofList body)
  | keyword {w : List Char} : String.ofList w ∈ v.keywords →
      Denotes v ⟨.identifier, w⟩ .keyword (String.ofList w)
  | identifier {w : List Char} : String.ofList w ∉ v.keywords →
      Denotes v ⟨.identifier, w⟩ .identifier (String.ofList w)
  | other {k : TokenClass} {w : List Char} : k ≠ .literal → k ≠ .identifier →
      Denotes v ⟨k, w⟩ k (String.ofList w)

theorem denotes_toToken (mem : l ∈ v.cut cs) (p : Position) :
    v.Denotes l (l.toToken v.keywords p).kind (l.toToken v.keywords p).text := by
  obtain ⟨k, w⟩ := l
  by_cases isLiteral : k = .literal
  · subst isLiteral
    obtain ⟨rest, lexeme⟩ := exists_lexemeAt_of_mem_cut mem
    obtain ⟨quote, body, rfl, -⟩ := exists_quote_of_literal (text_ne_nil_of_mem_cut mem) lexeme
    have denotes : v.Denotes ⟨.literal, quote :: (body ++ [quote])⟩ .literal (String.ofList body) :=
      .literal
    simpa [Lexeme.toToken, Lexeme.content] using denotes
  · have content : Lexeme.content ⟨k, w⟩ = w := if_neg isLiteral
    rw [Lexeme.toToken, content]
    by_cases isIdentifier : k = .identifier
    · subst isIdentifier
      by_cases isKeyword : String.ofList w ∈ v.keywords
      · simpa [isKeyword] using Denotes.keyword isKeyword
      · simpa [isKeyword] using Denotes.identifier isKeyword
    · simpa [isIdentifier] using Denotes.other isLiteral isIdentifier

theorem isKept_iff {keepComments : Bool} :
    l.isKept keepComments ↔ l.kind ≠ .space ∧ (l.kind = .comment → keepComments) := by
  cases kind : l.kind <;> simp [Lexeme.isKept, kind]

/-- The tokens of a source are those of its lexemes, but for the ones that become no token. -/
theorem forall₂_denotes_tokens (v : Vocabulary) (keepComments : Bool) (source : String) :
    List.Forall₂ (fun l t => v.Denotes l t.kind t.text)
      ((v.cut source.toList).filter (·.isKept keepComments)) (v.tokens keepComments source) := by
  rw [← Lexeme.map_snd_filter_place keepComments .start, tokens, List.forall₂_map_left_iff,
    List.forall₂_map_right_iff, List.forall₂_same]
  rintro ⟨p, l⟩ mem
  have memCut : l ∈ v.cut source.toList := Lexeme.mem_of_mem_place (List.mem_filter.1 mem).1
  exact denotes_toToken memCut p

/-- **Every source is split as the forms of the lexemes say**, whatever the symbols and the keywords
are: it falls into lexemes in one way only, which is how it is cut, and its tokens are those of the
lexemes in this order, spaces apart, and comments apart unless they are kept. -/
theorem cuts_source (v : Vocabulary) (source : String) :
    (∀ ls, v.Cuts source.toList ls ↔ ls = v.cut source.toList) ∧
      ∀ keepComments : Bool, List.Forall₂ (fun l t => v.Denotes l t.kind t.text)
        ((v.cut source.toList).filter fun l =>
          l.kind ≠ .space ∧ (l.kind = .comment → keepComments))
        (v.tokens keepComments source) := by
  refine ⟨fun ls => cuts_iff, ?_⟩
  intro keepComments
  have same : (v.cut source.toList).filter (fun l =>
        l.kind ≠ .space ∧ (l.kind = .comment → keepComments)) =
      (v.cut source.toList).filter (·.isKept keepComments) := by
    refine List.filter_congr ?_
    intro l _
    rw [Bool.eq_iff_iff, decide_eq_true_iff, isKept_iff]
  rw [same]
  exact v.forall₂_denotes_tokens keepComments source

end Vocabulary

end GrammarNotation
