import GrammarNotation.Proofs.Lexeme.Splitting

/-!
# Where tokens stand

The place of a token is that of its lexeme: as many characters, and as many newlines, stand before
it as its place says, whatever the lexemes in front of it are and whether they became tokens.

## Main definitions

- `Position.IsBehind` — the place behind a text
- `Vocabulary.StandsFor` — a token and the lexeme for which it stands

## Main statements

- `Position.isBehind_advance` — the place that is reached behind a text is the one behind it
- `Vocabulary.exists_standsFor` — each token of a source stands for the lexeme in its turn
-/

namespace GrammarNotation

/-! ### Places -/

/-- **The place behind a text**: the line is counted by newlines, and the column from the place just
after the last newline, or from the beginning. -/
structure Position.IsBehind (p : Position) (before : List Char) : Prop where
  index_eq : p.index = before.length
  line_eq : p.line = 1 + before.count '\n'
  column_of_newline : ∀ above line, before = above ++ '\n' :: line → '\n' ∉ line →
    p.column = p.index - (above.length + 1)
  column_of_notMem : '\n' ∉ before → p.column = p.index

theorem Position.isBehind_advance (cs : List Char) : (start.advance cs).IsBehind cs := by
  have index : (start.advance cs).index = cs.length := by
    rw [index_advance]
    exact Int.zero_add _
  refine ⟨index, line_advance start cs, ?_, ?_⟩
  · rintro above line rfl none
    have split : above ++ '\n' :: line = (above ++ ['\n']) ++ line := by simp
    rw [index, split, advance_append, column_advance_of_notMem none,
      column_advance_append_newline]
    simp only [List.length_append, List.length_cons, List.length_nil]
    push_cast
    omega
  · intro none
    rw [index, column_advance_of_notMem none]
    exact Int.zero_add _

/-! ### Tokens -/

/-- A member of a filtered list has its turn behind those that are kept before it. -/
theorem exists_append_of_getElem?_filter {α : Type} {P : α → Bool} {xs : List α} {n : Nat} {x : α}
    (h : (xs.filter P)[n]? = some x) :
    ∃ front back, xs = front ++ x :: back ∧ front.countP P = n ∧ P x := by
  induction xs generalizing n with
  | nil => simp at h
  | cons y ys ih =>
    by_cases kept : P y
    · rw [List.filter_cons_of_pos kept] at h
      cases n with
      | zero =>
        obtain rfl : y = x := by simpa using h
        exact ⟨[], ys, rfl, rfl, kept⟩
      | succ n =>
        obtain ⟨front, back, rfl, count, isKept⟩ := ih (by simpa using h)
        exact ⟨y :: front, back, rfl, by rw [List.countP_cons_of_pos kept, count], isKept⟩
    · rw [List.filter_cons_of_neg kept] at h
      obtain ⟨front, back, rfl, count, isKept⟩ := ih h
      exact ⟨y :: front, back, rfl, by rw [List.countP_cons_of_neg kept, count], isKept⟩

namespace Vocabulary

/-- **The token stands for the lexeme** between those in front of it and those behind it: it has its
class and its text, and its place is where the text of the lexeme starts. -/
structure StandsFor (v : Vocabulary) (source : String) (t : Token) (p : Position)
    (front : List Lexeme) (l : Lexeme) (back : List Lexeme) : Prop where
  cut_eq : v.cut source.toList = front ++ l :: back
  source_eq : source.toList =
    (front.map Lexeme.text).flatten ++ (l.text ++ (back.map Lexeme.text).flatten)
  denotes : v.Denotes l t.kind t.text
  position_eq : t.position = some p
  isBehind : p.IsBehind (front.map Lexeme.text).flatten

variable {v : Vocabulary} {keepComments : Bool} {source : String} {t : Token}

/-- **Each token of a source stands for the lexeme in its turn**, those that become no token not
being counted. -/
theorem exists_standsFor {n : Nat} (h : (v.tokens keepComments source)[n]? = some t) :
    ∃ front l back p, v.StandsFor source t p front l back ∧
      l.isKept keepComments ∧ front.countP (·.isKept keepComments) = n := by
  rw [tokens, List.getElem?_map, Option.map_eq_some_iff] at h
  obtain ⟨⟨p, l⟩, turn, rfl⟩ := h
  obtain ⟨before, after, placed, count, kept⟩ := exists_append_of_getElem?_filter turn
  obtain ⟨cut, rfl⟩ := Lexeme.eq_append_of_place_eq placed
  have mem : l ∈ v.cut source.toList := by simp [cut]
  refine ⟨_, l, _, _, ⟨cut, eq_append_of_cut_eq cut, denotes_toToken mem _, rfl,
    Position.isBehind_advance _⟩, kept, ?_⟩
  rw [List.countP_map]
  exact count

/-- A token starts with a character that is no space. -/
theorem StandsFor.exists_text_eq_cons {p : Position} {front back : List Lexeme} {l : Lexeme}
    (h : v.StandsFor source t p front l back) (kept : l.isKept keepComments) :
    ∃ c w, l.text = c :: w ∧ isSpaceChar c = false := by
  have mem : l ∈ v.cut source.toList := by simp [h.cut_eq]
  obtain ⟨rest, lexeme⟩ := exists_lexemeAt_of_mem_cut mem
  exact Vocabulary.exists_text_eq_cons lexeme (text_ne_nil_of_mem_cut mem) kept

end Vocabulary

end GrammarNotation
