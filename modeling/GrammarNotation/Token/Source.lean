import GrammarNotation.Lexeme.Cut
import GrammarNotation.Token.Basic

/-!
# The tokens of a source text

Each lexeme of a source becomes a token at its place, except that spaces are dropped, and comments
too unless they are to be kept. A literal loses its quotes, and an identifier that is one of the
keywords becomes a keyword.

## Main definitions

- `Lexeme.place` — lexemes with the positions at which they stand
- `Lexeme.toToken` — the token that a lexeme stands for
- `Vocabulary.tokens` — the tokens of a source text
-/

namespace GrammarNotation

namespace Lexeme

/-- The lexemes of a text that starts at `p`, each with its place. -/
def place : (p : Position) → List Lexeme → List (Position × Lexeme)
  | _, [] => []
  | p, l :: ls => (p, l) :: place (p.advance l.text) ls

/-- The text of a lexeme, without the quotes if it is a literal. -/
def content (l : Lexeme) : List Char :=
  if l.kind = .literal then l.text.tail.dropLast else l.text

/-- The token that a lexeme stands for. -/
def toToken (keywords : List String) (p : Position) (l : Lexeme) : Token :=
  let text := String.ofList l.content
  let kind := if l.kind = .identifier ∧ text ∈ keywords then .keyword else l.kind
  ⟨kind, text, some p⟩

/-- Tells whether a lexeme becomes a token. -/
def isKept (keepComments : Bool) (l : Lexeme) : Bool :=
  match l.kind with
  | .space => false
  | .comment => keepComments
  | _ => true

end Lexeme

/-- The tokens of a source text. -/
def Vocabulary.tokens (v : Vocabulary) (keepComments : Bool) (source : String) : List Token :=
  let kept := (Lexeme.place .start (v.cut source.toList)).filter (·.2.isKept keepComments)
  kept.map fun placed => placed.2.toToken v.keywords placed.1

namespace Lexeme

@[simp]
theorem place_nil (p : Position) : place p [] = [] := rfl

@[simp]
theorem place_cons (p : Position) (l : Lexeme) (ls : List Lexeme) :
    place p (l :: ls) = (p, l) :: place (p.advance l.text) ls := rfl

theorem place_append (p : Position) (ls ms : List Lexeme) :
    place p (ls ++ ms) = place p ls ++ place (p.advance (ls.map text).flatten) ms := by
  induction ls generalizing p with
  | nil => rfl
  | cons l ls ih => simp [ih, Position.advance_append]

/-- Placing lexemes changes neither them nor their order. -/
theorem map_snd_place (p : Position) (ls : List Lexeme) : (place p ls).map Prod.snd = ls := by
  induction ls generalizing p with
  | nil => rfl
  | cons l ls ih => simp [ih]

/-- A lexeme is placed behind those in front of it. -/
theorem eq_append_of_place_eq {p q : Position} {l : Lexeme} {ls : List Lexeme}
    {before after : List (Position × Lexeme)} (h : place p ls = before ++ (q, l) :: after) :
    ls = before.map Prod.snd ++ l :: after.map Prod.snd ∧
      q = p.advance ((before.map Prod.snd).map text).flatten := by
  have order := congrArg (List.map Prod.snd) h
  rw [map_snd_place, List.map_append, List.map_cons] at order
  refine ⟨order, ?_⟩
  rw [order, place_append, place_cons] at h
  have length : (place p (before.map Prod.snd)).length = before.length := by
    rw [← List.length_map Prod.snd, map_snd_place, List.length_map]
  obtain ⟨-, rest⟩ := List.append_inj h length
  exact (congrArg Prod.fst (List.cons.inj rest).1).symm

theorem mem_of_mem_place {p q : Position} {l : Lexeme} {ls : List Lexeme}
    (h : (q, l) ∈ place p ls) : l ∈ ls := by
  rw [← map_snd_place p ls]
  exact List.mem_map_of_mem h

/-- The lexemes that become tokens are the same with and without their places. -/
theorem map_snd_filter_place (keepComments : Bool) (p : Position) (ls : List Lexeme) :
    ((place p ls).filter (·.2.isKept keepComments)).map Prod.snd =
      ls.filter (·.isKept keepComments) := by
  conv => rhs; rw [← map_snd_place p ls, List.filter_map]
  rfl

@[simp]
theorem position_toToken (keywords : List String) (p : Position) (l : Lexeme) :
    (l.toToken keywords p).position = some p := rfl

@[simp]
theorem text_toToken (keywords : List String) (p : Position) (l : Lexeme) :
    (l.toToken keywords p).text = String.ofList l.content := rfl

/-- Comments are the tokens of comments. -/
theorem kind_toToken_eq_comment_iff (keywords : List String) (p : Position) (l : Lexeme) :
    (l.toToken keywords p).kind = .comment ↔ l.kind = .comment := by
  rw [toToken]
  dsimp only
  split
  · next h => simp [h.1]
  · rfl

end Lexeme

/-- The comments apart, the tokens are the same whether or not comments are kept, places included. -/
theorem Vocabulary.tokens_false_eq_filter (v : Vocabulary) (source : String) :
    v.tokens false source = (v.tokens true source).filter (·.kind ≠ .comment) := by
  rw [tokens, tokens, List.filter_map, List.filter_filter]
  congr 1
  apply List.filter_congr
  rintro ⟨p, l⟩ -
  have kind := Lexeme.kind_toToken_eq_comment_iff v.keywords p l
  cases h : l.kind <;> simp [Lexeme.isKept, h, kind]

end GrammarNotation
