import GrammarNotation.Lexeme.Extent

/-!
# Cutting a text into lexemes

A text is cut from the left. At each place the lexeme is of the first class, in order of
precedence, that starts there, and it takes up that class's extent.

## Main definitions

- `Vocabulary.cut` — the lexemes of a text

## Main statements

- `Vocabulary.cut_cons` — the first lexeme, and the cut of the rest
- `Vocabulary.flatten_cut` — the lexemes put together again are the text
- `Vocabulary.text_ne_nil_of_mem_cut` — no lexeme is empty

## Design notes

The recursion follows the characters, with a count of those that belong to the lexeme just cut
and are still to be passed over.
-/

namespace GrammarNotation

namespace Vocabulary

/-- The lexeme at the front of a text. -/
def lexemeAt (v : Vocabulary) (cs : List Char) : Lexeme :=
  ⟨v.classAt cs, cs.take (v.extent (v.classAt cs) cs)⟩

/-- The lexemes of a text of which the first `skip` characters are already taken. -/
def cutAfter (v : Vocabulary) : (skip : Nat) → List Char → List Lexeme
  | _, [] => []
  | skip + 1, _ :: cs => cutAfter v skip cs
  | 0, c :: cs =>
    let lexeme := v.lexemeAt (c :: cs)
    lexeme :: cutAfter v (lexeme.text.length - 1) cs

/-- The lexemes of a text, in order. -/
def cut (v : Vocabulary) (cs : List Char) : List Lexeme :=
  v.cutAfter 0 cs

theorem cutAfter_eq_cut_drop (v : Vocabulary) (skip : Nat) (cs : List Char) :
    v.cutAfter skip cs = v.cut (cs.drop skip) := by
  induction cs generalizing skip with
  | nil => cases skip <;> rfl
  | cons c cs ih =>
    cases skip with
    | zero => rfl
    | succ skip => exact ih skip

@[simp]
theorem cut_nil (v : Vocabulary) : v.cut [] = [] := rfl

theorem length_text_lexemeAt (v : Vocabulary) (cs : List Char) :
    (v.lexemeAt cs).text.length = v.extent (v.classAt cs) cs := by
  simp [lexemeAt, v.extent_le_length]

theorem text_lexemeAt_ne_nil (v : Vocabulary) (c : Char) (cs : List Char) :
    (v.lexemeAt (c :: cs)).text ≠ [] := by
  refine List.ne_nil_of_length_pos ?_
  rw [length_text_lexemeAt]
  exact v.extent_classAt_pos c cs

/-- The first lexeme of a text, and the cut of what follows it. -/
theorem cut_cons (v : Vocabulary) (c : Char) (cs : List Char) :
    v.cut (c :: cs) = v.lexemeAt (c :: cs) ::
      v.cut ((c :: cs).drop (v.lexemeAt (c :: cs)).text.length) := by
  have pos := v.extent_classAt_pos c cs
  rw [cut, cutAfter, cutAfter_eq_cut_drop, length_text_lexemeAt]
  obtain ⟨n, eq⟩ := Nat.exists_eq_add_of_lt pos
  rw [Nat.zero_add] at eq
  rw [eq]
  rfl

/-- A text that begins with its first lexeme is cut into this one and the lexemes of the rest. -/
theorem cut_append {v : Vocabulary} {l : Lexeme} {rest : List Char} (ne : l.text ≠ [])
    (h : v.lexemeAt (l.text ++ rest) = l) : v.cut (l.text ++ rest) = l :: v.cut rest := by
  obtain ⟨c, w, text⟩ := List.exists_cons_of_ne_nil ne
  rw [text, List.cons_append] at h ⊢
  rw [cut_cons, h, text, ← List.cons_append, List.drop_left]

/-- The lexemes put together again are the text. -/
theorem flatten_cut (v : Vocabulary) (cs : List Char) :
    ((v.cut cs).map Lexeme.text).flatten = cs := by
  induction h : cs.length using Nat.strongRecOn generalizing cs with
  | _ n ih =>
    cases cs with
    | nil => rfl
    | cons c cs =>
      have pos := v.extent_classAt_pos c cs
      have rest := ih _ (by
        rw [← h, List.length_drop, length_text_lexemeAt]
        simp only [List.length_cons]
        omega) ((c :: cs).drop (v.lexemeAt (c :: cs)).text.length) rfl
      rw [cut_cons, List.map_cons, List.flatten_cons, rest, length_text_lexemeAt, lexemeAt]
      exact List.take_append_drop _ _

/-- Around a lexeme stand the texts of those before and behind it. -/
theorem eq_append_of_cut_eq {v : Vocabulary} {cs : List Char} {front back : List Lexeme}
    {l : Lexeme} (h : v.cut cs = front ++ l :: back) :
    cs = (front.map Lexeme.text).flatten ++ (l.text ++ (back.map Lexeme.text).flatten) := by
  conv => lhs; rw [← v.flatten_cut cs, h]
  rw [List.map_append, List.flatten_append, List.map_cons, List.flatten_cons]

theorem text_ne_nil_of_mem_cut {v : Vocabulary} {cs : List Char} {l : Lexeme}
    (h : l ∈ v.cut cs) : l.text ≠ [] := by
  induction hn : cs.length using Nat.strongRecOn generalizing cs with
  | _ n ih =>
    cases cs with
    | nil => simp at h
    | cons c cs =>
      have pos := v.extent_classAt_pos c cs
      rw [cut_cons, List.mem_cons] at h
      rcases h with rfl | h
      · exact v.text_lexemeAt_ne_nil c cs
      · refine ih _ ?_ h rfl
        rw [← hn, List.length_drop, length_text_lexemeAt]
        simp only [List.length_cons]
        omega

end Vocabulary

end GrammarNotation
