import GrammarNotation.Proofs.Lexeme.Words

/-!
# Lexemes in front of a newline

How far a lexeme extends may depend on all that stands behind it: a quote or the opening of a
comment is a lexeme of its own only as long as nothing closes it. If the text behind a lexeme is
replaced by a newline and a text that closes no comments but those that were closed before, the
lexeme stays the same.

## Main definitions

- `HasClose` — the text closes a comment that was opened before

## Main statements

- `Vocabulary.extent_newline` — the extents of all classes, none reaching into the old text
- `Vocabulary.lexemeAt_newline` — the lexeme stays the same

## Design notes

Each class has one lemma: an extent that stays within the front part `w` of `w ++ rest` is the same
in `w ++ '\n' :: more`. It covers the class of the lexeme, and the classes of higher precedence, the
extents of which are 0.
-/

namespace GrammarNotation

section Extents

variable {c : Char} {w rest more : List Char}

/-! ### Runs, numbers and identifiers -/

theorem runLength_newline {p : Char → Bool} (stops : p '\n' = false)
    (fits : runLength p (w ++ rest) ≤ w.length) (more : List Char) :
    runLength p (w ++ '\n' :: more) = runLength p (w ++ rest) := by
  induction w with
  | nil =>
    have none : runLength p rest = 0 := Nat.le_zero.1 fits
    exact (runLength_eq_zero more stops).trans none.symm
  | cons c w ih =>
    simp only [runLength, List.cons_append, List.takeWhile_cons] at fits ih ⊢
    by_cases h : p c
    · simp only [h, if_true, List.length_cons, Nat.add_le_add_iff_right] at fits ⊢
      rw [ih fits]
    · simp [h]

/-- How far a point and digits behind it extend at the front of a text. -/
def fractionExtent : List Char → Nat
  | '.' :: cs => if runLength Char.isDigit cs = 0 then 0 else 1 + runLength Char.isDigit cs
  | _ => 0

theorem numberExtent_eq (cs : List Char) :
    numberExtent cs =
      if runLength Char.isDigit cs = 0 then 0
      else runLength Char.isDigit cs + fractionExtent (cs.drop (runLength Char.isDigit cs)) := by
  rw [numberExtent]
  split
  · rfl
  · split
    · next rest eq =>
      rw [eq, fractionExtent]
      dsimp only
      split <;> omega
    · next other => simp [fractionExtent]

theorem fractionExtent_newline (fits : fractionExtent (w ++ rest) ≤ w.length)
    (more : List Char) : fractionExtent (w ++ '\n' :: more) = fractionExtent (w ++ rest) := by
  have stops : Char.isDigit '\n' = false := by decide
  cases w with
  | nil =>
    have none : fractionExtent rest = 0 := Nat.le_zero.1 fits
    exact none.symm
  | cons c w =>
    by_cases point : c = '.'
    · subst point
      simp only [List.cons_append, fractionExtent, List.length_cons] at fits ⊢
      have digits : runLength Char.isDigit (w ++ rest) ≤ w.length := by
        split at fits <;> omega
      rw [runLength_newline stops digits]
    · simp [fractionExtent, point]

theorem numberExtent_newline (fits : numberExtent (w ++ rest) ≤ w.length) (more : List Char) :
    numberExtent (w ++ '\n' :: more) = numberExtent (w ++ rest) := by
  have stops : Char.isDigit '\n' = false := by decide
  rw [numberExtent_eq] at fits
  have whole_le : runLength Char.isDigit (w ++ rest) ≤ w.length := by
    split at fits <;> omega
  rw [numberExtent_eq, numberExtent_eq, runLength_newline stops whole_le]
  split
  · rfl
  · next some =>
    rw [if_neg some] at fits
    rw [List.drop_append_of_le_length whole_le] at fits ⊢
    rw [List.drop_append_of_le_length whole_le, fractionExtent_newline]
    rw [List.length_drop]
    omega

theorem nameRest_of_not_isNameChar (other : isNameChar c = false) (cs : List Char) :
    nameRest (c :: cs) = if c = '-' ∧ cs.head?.any isNameChar then nameRest cs + 1 else 0 := by
  rw [nameRest, other]
  simp

theorem nameRest_newline (fits : nameRest (w ++ rest) ≤ w.length) (more : List Char) :
    nameRest (w ++ '\n' :: more) = nameRest (w ++ rest) := by
  induction w with
  | nil =>
    have none : nameRest rest = 0 := Nat.le_zero.1 fits
    exact none.symm
  | cons c w ih =>
    rw [List.cons_append] at fits ⊢
    rw [List.cons_append]
    cases isName : isNameChar c with
    | true =>
      rw [nameRest, if_pos isName] at fits ⊢
      rw [nameRest, if_pos isName, ih (Nat.le_of_succ_le_succ fits)]
    | false =>
      rw [nameRest_of_not_isNameChar isName] at fits ⊢
      rw [nameRest_of_not_isNameChar isName]
      by_cases goesOn : c = '-' ∧ (w ++ rest).head?.any isNameChar
      · rw [if_pos goesOn] at fits
        have inner := Nat.le_of_succ_le_succ fits
        cases w with
        | nil =>
          -- A name that goes on behind the hyphen would reach into what is replaced.
          cases rest with
          | nil => simp at goesOn
          | cons d rest =>
            have isName : isNameChar d := goesOn.2
            simp [nameRest, isName] at inner
        | cons d w =>
          have goesOn' : c = '-' ∧ (d :: w ++ '\n' :: more).head?.any isNameChar := goesOn
          rw [if_pos goesOn', if_pos goesOn, ih inner]
      · rw [if_neg goesOn, if_neg]
        rintro ⟨hyphen, next⟩
        cases w with
        | nil =>
          have isName : isNameChar '\n' := next
          exact absurd isName (by decide)
        | cons d w => exact goesOn ⟨hyphen, next⟩

theorem identifierExtent_newline (fits : identifierExtent (w ++ rest) ≤ w.length)
    (more : List Char) : identifierExtent (w ++ '\n' :: more) = identifierExtent (w ++ rest) := by
  cases w with
  | nil =>
    have none : identifierExtent rest = 0 := Nat.le_zero.1 fits
    exact none.symm
  | cons c w =>
    rw [List.cons_append, identifierExtent] at fits ⊢
    rw [List.cons_append, identifierExtent]
    split
    · next start =>
      rw [if_pos start] at fits
      rw [nameRest_newline (Nat.le_of_succ_le_succ fits)]
    · rfl

/-! ### Comments -/

/-- The text closes a comment that was opened before. -/
def HasClose (cs : List Char) : Prop := ['*', '/'] <:+: cs

theorem infix_of_infix_append_cons {xs : List Char} (other : c ∉ xs)
    (h : xs <:+: w ++ c :: more) : xs <:+: w ∨ xs <:+: more := by
  obtain ⟨front, back, eq⟩ := h
  rcases List.append_eq_append_iff.1 eq with ⟨behind, rfl, -⟩ | ⟨behind, eq', eq''⟩
  · exact .inl ⟨front, behind, rfl⟩
  · cases behind with
    | nil =>
      rw [List.append_nil] at eq'
      exact .inl (eq' ▸ (List.suffix_append front xs).isInfix)
    | cons d behind =>
      obtain ⟨rfl, rfl⟩ := List.cons.inj eq''
      rcases List.append_eq_append_iff.1 eq' with ⟨between, -, eq₂⟩ | ⟨between, -, eq₂⟩
      · exact absurd (by simp [eq₂]) other
      · cases between with
        | nil =>
          have mem : c ∈ xs := (List.nil_append xs ▸ eq₂) ▸ List.mem_cons_self
          exact absurd mem other
        | cons e between =>
          obtain ⟨-, rfl⟩ := List.cons.inj eq₂
          exact .inr ⟨between, back, rfl⟩

theorem throughClose?_eq_none_iff {cs : List Char} : throughClose? cs = none ↔ ¬ HasClose cs := by
  fun_induction throughClose? cs with
  | case1 => simp [HasClose]
  | case2 c => simp [HasClose, List.infix_cons_iff]
  | case3 c d cs close =>
    obtain ⟨rfl, rfl⟩ := close
    have isClosed : HasClose ('*' :: '/' :: cs) := ⟨[], cs, rfl⟩
    simp [isClosed]
  | case4 c d cs close ih =>
    have step : HasClose (c :: d :: cs) ↔ HasClose (d :: cs) := by
      rw [HasClose, List.infix_cons_iff]
      refine or_iff_right ?_
      simpa [List.cons_prefix_cons, eq_comm] using close
    rw [step, ← ih]
    simp

theorem two_le_of_throughClose? {cs : List Char} {n : Nat} (h : throughClose? cs = some n) :
    2 ≤ n := by
  fun_induction throughClose? cs generalizing n with
  | case1 => simp at h
  | case2 => simp at h
  | case3 c d cs close => exact Nat.le_of_eq (Option.some.inj h)
  | case4 c d cs close ih =>
    obtain ⟨m, eq, rfl⟩ := Option.map_eq_some_iff.1 h
    exact Nat.le_succ_of_le (ih eq)

theorem throughClose?_append {n : Nat} (h : throughClose? (w ++ rest) = some n)
    (fits : n ≤ w.length) (more : List Char) : throughClose? (w ++ more) = some n := by
  have length := two_le_of_throughClose? h
  induction w using throughClose?.induct generalizing n with
  | case1 =>
    simp only [List.length_nil] at fits
    omega
  | case2 c =>
    simp only [List.length_singleton] at fits
    omega
  | case3 c d w close =>
    obtain ⟨rfl, rfl⟩ := close
    exact h
  | case4 c d w close ih =>
    simp only [List.cons_append, throughClose?, if_neg close] at h ⊢
    obtain ⟨m, eq, rfl⟩ := Option.map_eq_some_iff.1 h
    rw [← List.cons_append, ih eq (Nat.le_of_succ_le_succ fits) (two_le_of_throughClose? eq)]
    rfl

theorem HasClose.of_newline (close : HasClose more → HasClose rest)
    (h : HasClose (w ++ '\n' :: more)) : HasClose (w ++ rest) := by
  rcases infix_of_infix_append_cons (by decide) h with inside | behind
  · exact inside.trans (List.prefix_append w rest).isInfix
  · exact (close behind).trans (List.suffix_append w rest).isInfix

theorem throughClose?_newline (close : HasClose more → HasClose rest)
    (fits : ∀ n ∈ throughClose? (w ++ rest), n ≤ w.length) :
    throughClose? (w ++ '\n' :: more) = throughClose? (w ++ rest) := by
  cases h : throughClose? (w ++ rest) with
  | some n => exact throughClose?_append h (fits n h) _
  | none =>
    rw [throughClose?_eq_none_iff] at h ⊢
    exact fun isClosed => h (isClosed.of_newline close)

theorem commentExtent_slash {d : Char} (noLine : d ≠ '/') (noBlock : d ≠ '*') (cs : List Char) :
    commentExtent ('/' :: d :: cs) = 0 := by
  simp [commentExtent.eq_def, noLine, noBlock]

theorem two_le_commentExtent {cs : List Char} (pos : 0 < commentExtent cs) :
    2 ≤ commentExtent cs := by
  rw [commentExtent.eq_def] at pos ⊢
  split at pos
  · exact Nat.le_add_right 2 _
  · next cs =>
    cases h : throughClose? cs with
    | none => simp [h] at pos
    | some n => simp
  · exact absurd pos (Nat.lt_irrefl 0)

theorem commentExtent_newline (close : HasClose more → HasClose rest)
    (fits : commentExtent (w ++ rest) ≤ w.length) :
    commentExtent (w ++ '\n' :: more) = commentExtent (w ++ rest) := by
  match w with
  | [] =>
    have none : commentExtent rest = 0 := Nat.le_zero.1 fits
    exact none.symm
  | [c] =>
    have none : commentExtent (c :: rest) = 0 := by
      refine Nat.eq_zero_of_not_pos ?_
      intro pos
      have short : 2 ≤ 1 := Nat.le_trans (two_le_commentExtent pos) fits
      exact absurd short (by decide)
    rw [List.singleton_append, List.singleton_append, none]
    by_cases slash : c = '/'
    · exact slash ▸ commentExtent_slash (by decide) (by decide) more
    · exact commentExtent_eq_zero _ slash
  | c :: d :: w =>
    simp only [List.cons_append, List.length_cons] at fits ⊢
    by_cases slash : c = '/'
    · subst slash
      by_cases line : d = '/'
      · subst line
        simp only [commentExtent] at fits ⊢
        have line : runLength (· != '\n') (w ++ rest) ≤ w.length := by omega
        rw [runLength_newline rfl line]
      · by_cases block : d = '*'
        · subst block
          simp only [commentExtent] at fits ⊢
          rw [throughClose?_newline close]
          intro n eq
          rw [Option.mem_def.1 eq, Option.elim_some] at fits
          omega
        · rw [commentExtent_slash line block, commentExtent_slash line block]
    · rw [commentExtent_eq_zero _ slash, commentExtent_eq_zero _ slash]

/-! ### Literals -/

theorem LiteralBody.newline_notMem {quote : Char} {body : List Char} (h : LiteralBody quote body) :
    '\n' ∉ body := by
  induction h with
  | nil => simp
  | plain _ _ notNewline _ ih => simp [notNewline.symm, ih]
  | escape notNewline _ ih => simp [notNewline.symm, ih]

theorem throughQuote?_newline {quote : Char} (isQuote : IsQuote quote)
    (fits : ∀ n ∈ throughQuote? quote (w ++ rest), n ≤ w.length) (more : List Char) :
    throughQuote? quote (w ++ '\n' :: more) = throughQuote? quote (w ++ rest) := by
  -- What ends at the closing quote within `w` is found whatever stands behind `w`.
  have within : ∀ {body : List Char}, LiteralBody quote body → body ++ [quote] <+: w →
      ∀ cs, throughQuote? quote (w ++ cs) = some (body.length + 1) := by
    rintro body isBody ⟨w, rfl⟩ cs
    rw [List.append_assoc, List.append_assoc]
    exact isBody.throughQuote?_append isQuote (w ++ cs)
  cases h : throughQuote? quote (w ++ rest) with
  | some n =>
    obtain ⟨body, behind, eq, rfl, isBody⟩ := exists_body_of_throughQuote? h
    have front : body ++ [quote] <+: w ++ rest := ⟨behind, by simp [eq]⟩
    have inside : body ++ [quote] <+: w :=
      List.prefix_of_prefix_length_le front (List.prefix_append w rest) (by simpa using fits _ h)
    exact within isBody inside _
  | none =>
    cases h' : throughQuote? quote (w ++ '\n' :: more) with
    | none => rfl
    | some n =>
      obtain ⟨body, behind, eq, rfl, isBody⟩ := exists_body_of_throughQuote? h'
      have front : body ++ [quote] <+: w ++ '\n' :: more := ⟨behind, by simp [eq]⟩
      have noNewline : '\n' ∉ body ++ [quote] := by
        have other : '\n' ≠ quote := by rcases isQuote with rfl | rfl <;> decide
        simp [isBody.newline_notMem, other]
      have inside := prefix_of_prefix_append front fun c eq => Option.some.inj eq ▸ noNewline
      rw [within isBody inside] at h
      cases h

theorem literalExtent_newline (fits : literalExtent (w ++ rest) ≤ w.length) (more : List Char) :
    literalExtent (w ++ '\n' :: more) = literalExtent (w ++ rest) := by
  cases w with
  | nil =>
    have none : literalExtent rest = 0 := Nat.le_zero.1 fits
    exact none.symm
  | cons c w =>
    rw [List.cons_append] at fits ⊢
    rw [List.cons_append]
    by_cases isQuote : IsQuote c
    · have opens : c = '"' ∨ c = '\'' := isQuote
      rw [literalExtent, if_pos opens] at fits ⊢
      rw [literalExtent, if_pos opens, throughQuote?_newline isQuote]
      intro n eq
      rw [Option.mem_def.1 eq] at fits
      exact Nat.le_of_succ_le_succ fits
    · rw [literalExtent_eq_zero _ isQuote, literalExtent_eq_zero _ isQuote]

/-! ### Symbols -/

theorem symbolExtent_newline {symbols : List String} (plain : ∀ s ∈ symbols, '\n' ∉ s.toList)
    (fits : symbolExtent symbols (w ++ rest) ≤ w.length) (more : List Char) :
    symbolExtent symbols (w ++ '\n' :: more) = symbolExtent symbols (w ++ rest) := by
  have same : ∀ s ∈ symbols, s.toList <+: w ++ '\n' :: more ↔ s.toList <+: w ++ rest := by
    intro s mem
    constructor
    · intro front
      have inside : s.toList <+: w :=
        prefix_of_prefix_append front fun c eq => Option.some.inj eq ▸ plain s mem
      exact inside.trans (List.prefix_append w rest)
    · intro front
      have length := Nat.le_trans (le_symbolExtent mem front) fits
      have inside : s.toList <+: w :=
        List.prefix_of_prefix_length_le front (List.prefix_append w rest) length
      exact inside.trans (List.prefix_append w _)
  refine Nat.le_antisymm ?_ ?_
  · apply symbolExtent_le_of_forall
    intro s mem front
    exact le_symbolExtent mem ((same s mem).1 front)
  · apply symbolExtent_le_of_forall
    intro s mem front
    exact le_symbolExtent mem ((same s mem).2 front)

end Extents

/-! ### Lexemes -/

namespace Vocabulary

variable {v : Vocabulary} {k : TokenClass} {c : Char} {w rest more : List Char}

/-- An extent that stays within a front part without spaces in front is the same if a newline
follows this part. -/
theorem extent_newline (plain : ∀ s ∈ v.symbols, '\n' ∉ s.toList) (noSpace : isSpaceChar c = false)
    (close : k = .comment → HasClose more → HasClose rest)
    (fits : v.extent k (c :: w ++ rest) ≤ (c :: w).length) :
    v.extent k (c :: w ++ '\n' :: more) = v.extent k (c :: w ++ rest) := by
  cases k with
  | keyword => rfl
  | space => exact (runLength_eq_zero _ noSpace).trans (runLength_eq_zero _ noSpace).symm
  | comment => exact commentExtent_newline (close rfl) fits
  | literal => exact literalExtent_newline (w := c :: w) fits more
  | number => exact numberExtent_newline fits more
  | identifier => exact identifierExtent_newline (w := c :: w) fits more
  | symbol => exact symbolExtent_newline plain fits more
  | invalid => simp [extent]

/-- The class of a lexeme is the first one in order of precedence that starts there. -/
theorem exists_precedence_of_lexemeAt {cs : List Char} (h : v.lexemeAt cs = ⟨k, w⟩)
    (ne : w ≠ []) :
    ∃ before after, precedence = before ++ k :: after ∧ (∀ k' ∈ before, v.extent k' cs = 0) ∧
      v.extent k cs = w.length := by
  obtain ⟨classAt, text⟩ := Lexeme.mk.inj h
  have length := v.length_text_lexemeAt cs
  rw [h, classAt] at length
  have pos : 0 < v.extent k cs := length ▸ List.length_pos_iff.2 ne
  cases found : precedence.find? fun k => 0 < v.extent k cs with
  | none =>
    rw [Vocabulary.classAt, found] at classAt
    have invalid : k = .invalid := classAt.symm
    have none := List.find?_eq_none.1 found k (invalid ▸ by decide)
    exact absurd pos (by simpa using none)
  | some k' =>
    obtain rfl : k' = k := by
      rw [Vocabulary.classAt, found] at classAt
      exact classAt
    obtain ⟨-, before, after, order, others⟩ := List.find?_eq_some_iff_append.1 found
    exact ⟨before, after, order, fun k' mem => by simpa using others k' mem, length.symm⟩

/-- **A lexeme stays the same** if a newline follows it, and behind the newline no comment is closed
that was not closed before. -/
theorem lexemeAt_newline (plain : ∀ s ∈ v.symbols, '\n' ∉ s.toList)
    (noSpace : isSpaceChar c = false) (close : HasClose more → HasClose rest)
    (h : v.lexemeAt (c :: w ++ rest) = ⟨k, c :: w⟩) :
    v.lexemeAt (c :: w ++ '\n' :: more) = ⟨k, c :: w⟩ := by
  obtain ⟨before, after, order, none, extent⟩ :=
    exists_precedence_of_lexemeAt h (List.cons_ne_nil c w)
  refine lexemeAt_append_of_extent order ?_ ?_ (List.cons_ne_nil c w)
  · intro k' mem
    rw [extent_newline plain noSpace (fun _ => close) (none k' mem ▸ Nat.zero_le _)]
    exact none k' mem
  · rw [extent_newline plain noSpace (fun _ => close) (Nat.le_of_eq extent), extent]

end Vocabulary

end GrammarNotation
