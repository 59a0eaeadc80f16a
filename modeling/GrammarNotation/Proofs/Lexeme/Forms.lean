import GrammarNotation.Proofs.Lexeme.Stability
import Mathlib.Data.List.TakeWhile

/-!
# The forms of lexemes

Each class of lexemes has a form, which says what its texts look like and nothing of how they are
found. Where a text of some class stands at the front, the extent of the class is the length of the
longest one, and where there is none, the extent is 0.

## Main definitions

- `Vocabulary.HasForm` — the texts of a class
- `Vocabulary.IsLongest` — the longest text of a class at the front

## Main statements

- `Vocabulary.hasForm_take_extent` — what a class takes up has its form
- `Vocabulary.length_le_extent` — nothing longer at the front has it
- `Vocabulary.isLongest_iff` — the two together

## Design notes

Only one comment, and only one literal, can stand at the front of a text, so that being the longest
asks no more of them than their forms do.
-/

namespace GrammarNotation

/-- **The texts of a class.** Spaces are one or more space characters. A comment goes on to the end
of the line, or from `/*` through the first `*/` behind it. A literal is a body between two like
quotes. A number is one or more digits, or two such rows of digits with a point between them. The
symbols are those of the vocabulary, and one character of any kind is an invalid lexeme. -/
inductive Vocabulary.HasForm (v : Vocabulary) : TokenClass → List Char → Prop
  | space {w : List Char} : w ≠ [] → (∀ c ∈ w, isSpaceChar c) → HasForm v .space w
  | lineComment {body : List Char} : '\n' ∉ body → HasForm v .comment ('/' :: '/' :: body)
  | blockComment {body : List Char} : ¬ HasClose (body ++ ['*']) →
      HasForm v .comment ('/' :: '*' :: (body ++ ['*', '/']))
  | literal {quote : Char} {body : List Char} : IsQuote quote → LiteralBody quote body →
      HasForm v .literal (quote :: (body ++ [quote]))
  | integer {whole : List Char} : whole ≠ [] → (∀ c ∈ whole, c.isDigit) →
      HasForm v .number whole
  | decimal {whole fraction : List Char} : whole ≠ [] → (∀ c ∈ whole, c.isDigit) →
      fraction ≠ [] → (∀ c ∈ fraction, c.isDigit) → HasForm v .number (whole ++ '.' :: fraction)
  | identifier {w : List Char} : IsIdentifier w → HasForm v .identifier w
  | symbol {s : String} : s ∈ v.symbols → s.toList ≠ [] → HasForm v .symbol s.toList
  | invalid {c : Char} : HasForm v .invalid [c]

/-- The longest text of a class that stands at the front of a text. -/
structure Vocabulary.IsLongest (v : Vocabulary) (k : TokenClass) (w cs : List Char) : Prop where
  hasForm : v.HasForm k w
  isPrefix : w <+: cs
  longest : ∀ w', v.HasForm k w' → w' <+: cs → w'.length ≤ w.length

theorem Vocabulary.HasForm.ne_nil {v : Vocabulary} {k : TokenClass} {w : List Char}
    (h : v.HasForm k w) : w ≠ [] := by
  cases h with
  | space ne | integer ne => exact ne
  | identifier isIdentifier =>
    obtain ⟨c, first, groups, rfl, -⟩ := isIdentifier
    exact List.cons_ne_nil _ _
  | symbol _ ne => exact ne
  | _ => simp

/-! ### Runs -/

section Runs

variable {p : Char → Bool} {w cs : List Char}

theorem take_runLength (p : Char → Bool) (cs : List Char) :
    cs.take (runLength p cs) = cs.takeWhile p :=
  (List.prefix_iff_eq_take.1 (List.takeWhile_prefix p)).symm

theorem of_mem_take_runLength {c : Char} (h : c ∈ cs.take (runLength p cs)) : p c := by
  rw [take_runLength] at h
  exact List.mem_takeWhile_imp h

theorem runLength_append (h : ∀ c ∈ w, p c) (cs : List Char) :
    runLength p (w ++ cs) = w.length + runLength p cs := by
  rw [runLength, List.takeWhile_append_of_pos h, List.length_append, runLength]

theorem length_le_runLength (h : ∀ c ∈ w, p c) (front : w <+: cs) :
    w.length ≤ runLength p cs := by
  obtain ⟨rest, rfl⟩ := front
  rw [runLength_append h]
  omega

theorem take_runLength_ne_nil (pos : 0 < runLength p cs) : cs.take (runLength p cs) ≠ [] := by
  rw [take_runLength]
  exact List.ne_nil_of_length_pos pos

end Runs

/-! ### Comments -/

section Comments

variable {cs rest body : List Char}

/-- Behind a text that closes no comment together with the star of `*/`, this is the first `*/`. -/
theorem throughClose?_append_close (unclosed : ¬ HasClose (body ++ ['*'])) (rest : List Char) :
    throughClose? (body ++ '*' :: '/' :: rest) = some (body.length + 2) := by
  induction body with
  | nil => rfl
  | cons c body ih =>
    have inner : ¬ HasClose (body ++ ['*']) := fun close => unclosed (List.infix_cons close)
    obtain ⟨d, ds, eq⟩ := List.exists_cons_of_ne_nil
      (List.append_ne_nil_of_right_ne_nil body (List.cons_ne_nil '*' ('/' :: rest)))
    have other : ¬ (c = '*' ∧ d = '/') := by
      rintro ⟨rfl, rfl⟩
      cases body with
      | nil => simp at eq
      | cons e body =>
        obtain ⟨rfl, -⟩ := List.cons.inj eq
        exact unclosed ⟨[], body ++ ['*'], rfl⟩
    rw [List.cons_append, eq, throughClose?, if_neg other, ← eq, ih inner]
    rfl

/-- The first `*/` is behind a text that closes no comment together with its star. -/
theorem exists_body_of_throughClose? {n : Nat} (h : throughClose? cs = some n) :
    ∃ body rest, cs = body ++ '*' :: '/' :: rest ∧ n = body.length + 2 ∧
      ¬ HasClose (body ++ ['*']) := by
  fun_induction throughClose? cs generalizing n with
  | case1 => simp at h
  | case2 => simp at h
  | case3 c d cs close =>
    obtain ⟨rfl, rfl⟩ := close
    obtain rfl := Option.some.inj h
    exact ⟨[], cs, rfl, rfl, by simp [HasClose, List.infix_cons_iff]⟩
  | case4 c d cs close ih =>
    obtain ⟨m, eq, rfl⟩ := Option.map_eq_some_iff.1 h
    obtain ⟨body, rest, split, rfl, unclosed⟩ := ih eq
    refine ⟨c :: body, rest, congrArg (c :: ·) split, rfl, ?_⟩
    rw [List.cons_append, HasClose, List.infix_cons_iff]
    rintro (front | inner)
    · -- A `*/` at the very front would be the first one.
      apply close
      cases body with
      | nil =>
        obtain ⟨rfl, -⟩ := List.cons.inj split
        simp [List.cons_prefix_cons] at front
      | cons e body =>
        obtain ⟨rfl, -⟩ := List.cons.inj split
        simpa [List.cons_prefix_cons, eq_comm] using front
    · exact unclosed inner

end Comments

/-! ### Numbers and identifiers -/

section Names

variable {cs : List Char}

/-- A point and the digits behind it, if there are any, at the front of a text. -/
theorem take_fractionExtent (cs : List Char) :
    cs.take (fractionExtent cs) = [] ∨ ∃ fraction, cs.take (fractionExtent cs) = '.' :: fraction ∧
      fraction ≠ [] ∧ ∀ c ∈ fraction, c.isDigit := by
  unfold fractionExtent
  split
  · next cs =>
    split
    · exact .inl rfl
    · next some =>
      refine .inr ⟨cs.take (runLength Char.isDigit cs), ?_, ?_, ?_⟩
      · rw [Nat.add_comm, List.take_succ_cons]
      · exact take_runLength_ne_nil (Nat.pos_of_ne_zero some)
      · exact fun c mem => of_mem_take_runLength mem
  · exact .inl rfl

theorem nameRest_take_nameRest (cs : List Char) :
    nameRest (cs.take (nameRest cs)) = nameRest cs := by
  induction cs with
  | nil => rfl
  | cons c cs ih =>
    cases isName : isNameChar c with
    | true =>
      rw [nameRest, if_pos isName, List.take_succ_cons, nameRest, if_pos isName, ih]
    | false =>
      rw [nameRest_of_not_isNameChar isName]
      split
      · next goesOn =>
        obtain ⟨d, eq, isName'⟩ := (Option.any_eq_true _ _).1 goesOn.2
        obtain ⟨cs, rfl⟩ := List.head?_eq_some_iff.1 eq
        have inner : nameRest (d :: cs) = nameRest cs + 1 := by rw [nameRest, if_pos isName']
        rw [inner] at ih ⊢
        rw [List.take_succ_cons, nameRest_of_not_isNameChar isName, ih, List.take_succ_cons,
          if_pos ⟨goesOn.1, isName'⟩]
      · rfl

/-- What an identifier takes up is an identifier. -/
theorem isIdentifier_take_identifierExtent (pos : 0 < identifierExtent cs) :
    IsIdentifier (cs.take (identifierExtent cs)) := by
  have whole : identifierExtent (cs.take (identifierExtent cs)) = identifierExtent cs := by
    cases cs with
    | nil => rfl
    | cons c cs =>
      by_cases start : isNameStart c
      · rw [identifierExtent, if_pos start, List.take_succ_cons, identifierExtent, if_pos start,
          nameRest_take_nameRest]
      · simp [identifierExtent, start] at pos
  rw [isIdentifier_iff, whole, List.length_take]
  exact ⟨pos, (Nat.min_eq_left (identifierExtent_le cs)).symm⟩

theorem IsIdentifier.length_le_identifierExtent {w : List Char} (h : IsIdentifier w)
    (front : w <+: cs) : w.length ≤ identifierExtent cs := by
  obtain ⟨rest, rfl⟩ := front
  obtain ⟨c, first, groups, rfl, start, isFirst, isGroup⟩ := h
  rw [List.cons_append, List.append_assoc, identifierExtent, if_pos start,
    nameRest_append isFirst, nameRest_hyphenated isGroup, List.length_cons, List.length_append]
  omega

end Names

/-! ### Symbols -/

/-- Some symbol is as long as the extent, if that is not 0. -/
theorem exists_symbol_of_symbolExtent {symbols : List String} {cs : List Char}
    (pos : 0 < symbolExtent symbols cs) :
    ∃ s ∈ symbols, s.toList <+: cs ∧ s.toList.length = symbolExtent symbols cs := by
  by_contra none
  have shorter : symbolExtent symbols cs ≤ symbolExtent symbols cs - 1 := by
    apply symbolExtent_le_of_forall
    intro s mem front
    have le := le_symbolExtent mem front
    have ne : s.toList.length ≠ symbolExtent symbols cs := fun eq => none ⟨s, mem, front, eq⟩
    omega
  omega

/-! ### Extents are lengths of longest texts -/

namespace Vocabulary

variable {v : Vocabulary} {k : TokenClass} {w cs : List Char}

theorem hasForm_take_commentExtent (v : Vocabulary) (pos : 0 < commentExtent cs) :
    v.HasForm .comment (cs.take (commentExtent cs)) := by
  fun_cases commentExtent cs with
  | case1 cs =>
    have body : '\n' ∉ cs.take (runLength (· != '\n') cs) := by
      intro mem
      simpa using of_mem_take_runLength mem
    rw [Nat.add_comm]
    exact .lineComment body
  | case2 cs =>
    cases through : throughClose? cs with
    | none => simp [commentExtent, through] at pos
    | some n =>
      obtain ⟨body, rest, rfl, rfl, unclosed⟩ := exists_body_of_throughClose? through
      have front : (body ++ '*' :: '/' :: rest).take (body.length + 2) = body ++ ['*', '/'] := by
        rw [List.take_length_add_append]
        rfl
      rw [Option.elim_some, Nat.add_comm, List.take_succ_cons, List.take_succ_cons, front]
      exact .blockComment unclosed
  | case3 => simp [commentExtent] at pos

theorem hasForm_take_literalExtent (v : Vocabulary) (pos : 0 < literalExtent cs) :
    v.HasForm .literal (cs.take (literalExtent cs)) := by
  cases cs with
  | nil => exact absurd pos (Nat.lt_irrefl 0)
  | cons c cs =>
    by_cases isQuote : IsQuote c
    · have opens : c = '"' ∨ c = '\'' := isQuote
      rw [literalExtent, if_pos opens] at pos ⊢
      cases through : throughQuote? c cs with
      | none => simp [through] at pos
      | some n =>
        obtain ⟨body, rest, rfl, rfl, isBody⟩ := exists_body_of_throughQuote? through
        have front : (body ++ c :: rest).take (body.length + 1) = body ++ [c] := by
          rw [List.take_length_add_append]
          rfl
        rw [Option.elim_some, List.take_succ_cons, front]
        exact .literal isQuote isBody
    · rw [literalExtent_eq_zero cs isQuote] at pos
      exact absurd pos (Nat.lt_irrefl 0)

theorem hasForm_take_numberExtent (v : Vocabulary) (pos : 0 < numberExtent cs) :
    v.HasForm .number (cs.take (numberExtent cs)) := by
  by_cases none : runLength Char.isDigit cs = 0
  · rw [numberExtent_eq, if_pos none] at pos
    exact absurd pos (Nat.lt_irrefl 0)
  · have ne := take_runLength_ne_nil (Nat.pos_of_ne_zero none)
    rw [numberExtent_eq, if_neg none, List.take_add]
    rcases take_fractionExtent (cs.drop (runLength Char.isDigit cs)) with
      eq | ⟨fraction, eq, ne', digits⟩
    · rw [eq, List.append_nil]
      exact .integer ne fun c mem => of_mem_take_runLength mem
    · rw [eq]
      exact .decimal ne (fun c mem => of_mem_take_runLength mem) ne' digits

theorem hasForm_take_symbolExtent (pos : 0 < symbolExtent v.symbols cs) :
    v.HasForm .symbol (cs.take (symbolExtent v.symbols cs)) := by
  obtain ⟨s, mem, front, length⟩ := exists_symbol_of_symbolExtent pos
  rw [← length, ← List.prefix_iff_eq_take.1 front]
  exact .symbol mem (List.ne_nil_of_length_pos (length ▸ pos))

/-- What a class takes up at the front of a text has its form. -/
theorem hasForm_take_extent (pos : 0 < v.extent k cs) : v.HasForm k (cs.take (v.extent k cs)) := by
  cases k with
  | keyword => exact absurd pos (Nat.lt_irrefl 0)
  | space => exact .space (take_runLength_ne_nil pos) fun c mem => of_mem_take_runLength mem
  | comment => exact hasForm_take_commentExtent v pos
  | literal => exact hasForm_take_literalExtent v pos
  | number => exact hasForm_take_numberExtent v pos
  | identifier => exact .identifier (isIdentifier_take_identifierExtent pos)
  | symbol => exact hasForm_take_symbolExtent pos
  | invalid =>
    cases cs with
    | nil => exact absurd pos (Nat.lt_irrefl 0)
    | cons c cs =>
      have one : v.extent .invalid (c :: cs) = 1 := by simp [extent]
      rw [one]
      exact .invalid

/-- A class takes up at least what has its form at the front of a text. -/
theorem length_le_extent (form : v.HasForm k w) (front : w <+: cs) :
    w.length ≤ v.extent k cs := by
  cases form with
  | space _ spaces => exact length_le_runLength spaces front
  | @lineComment body inside =>
    obtain ⟨rest, rfl⟩ := front
    have line : ∀ c ∈ body, c != '\n' := by
      intro c mem
      rw [bne_iff_ne]
      rintro rfl
      exact inside mem
    have run := length_le_runLength line (List.prefix_append body rest)
    simp only [extent, List.cons_append, commentExtent, List.length_cons]
    omega
  | @blockComment body unclosed =>
    obtain ⟨rest, rfl⟩ := front
    have through := throughClose?_append_close unclosed rest
    simp only [extent, List.cons_append, List.append_assoc, List.nil_append, commentExtent,
      through, Option.elim_some, List.length_cons, List.length_append, List.length_nil]
    omega
  | @literal quote body isQuote isBody =>
    obtain ⟨rest, rfl⟩ := front
    have whole := isBody.literalExtent_append isQuote rest
    rw [extent, List.cons_append, List.append_assoc, List.singleton_append, whole]
    simp
  | integer _ digits =>
    have run := length_le_runLength digits front
    rw [extent, numberExtent_eq]
    split <;> omega
  | @decimal whole fraction ne digits ne' digits' =>
    obtain ⟨rest, rfl⟩ := front
    have run : runLength Char.isDigit (whole ++ '.' :: (fraction ++ rest)) = whole.length := by
      rw [runLength_append digits, runLength_eq_zero _ (by decide), Nat.add_zero]
    have run' := length_le_runLength digits' (List.prefix_append fraction rest)
    have pos := List.length_pos_iff.2 ne
    have pos' := List.length_pos_iff.2 ne'
    rw [extent, List.append_assoc, List.cons_append, numberExtent_eq, run, List.drop_left,
      fractionExtent, if_neg (by omega), if_neg (by omega), List.length_append, List.length_cons]
    omega
  | identifier isIdentifier => exact isIdentifier.length_le_identifierExtent front
  | symbol mem => exact le_symbolExtent mem front
  | invalid =>
    obtain ⟨rest, rfl⟩ := front
    simp [extent]

/-- **The longest text of a class at the front is what the class takes up there.** -/
theorem isLongest_iff : v.IsLongest k w cs ↔ w ≠ [] ∧ w = cs.take (v.extent k cs) := by
  constructor
  · intro h
    have le := length_le_extent h.hasForm h.isPrefix
    have pos := List.length_pos_iff.2 h.hasForm.ne_nil
    have ge := h.longest _ (hasForm_take_extent (by omega)) (List.take_prefix _ cs)
    rw [List.length_take, Nat.min_eq_left (v.extent_le_length k cs)] at ge
    refine ⟨h.hasForm.ne_nil, ?_⟩
    rw [Nat.le_antisymm ge le]
    exact List.prefix_iff_eq_take.1 h.isPrefix
  · rintro ⟨ne, rfl⟩
    have pos : 0 < v.extent k cs := by
      by_contra none
      simp [Nat.eq_zero_of_not_pos none] at ne
    refine ⟨hasForm_take_extent pos, List.take_prefix _ cs, ?_⟩
    intro w' form front
    rw [List.length_take, Nat.min_eq_left (v.extent_le_length k cs)]
    exact length_le_extent form front

/-- A class takes up nothing where none of its texts stands at the front. -/
theorem extent_eq_zero_iff : v.extent k cs = 0 ↔ ∀ w, w <+: cs → ¬ v.HasForm k w := by
  constructor
  · intro none w front form
    have le := length_le_extent form front
    have pos := List.length_pos_iff.2 form.ne_nil
    omega
  · intro none
    by_contra some
    exact none _ (List.take_prefix _ cs) (hasForm_take_extent (Nat.pos_of_ne_zero some))

end Vocabulary

end GrammarNotation
