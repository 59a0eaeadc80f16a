import GrammarNotation.Description.Printer

/-!
# Shapes of lexemes

What the texts of identifiers and of literals look like, as opposed to how far they are found to
extend at the front of a longer text. A text of the right shape is taken as a whole if nothing or a
blank stands behind it.

## Main definitions

- `EndsWord` — nothing or a blank comes next
- `IsIdentifier` — name characters, in groups with a hyphen between them
- `LiteralBody` — what may stand between two quotes of one kind

## Main statements

- `IsIdentifier.identifierExtent_append` — an identifier is taken as a whole
- `LiteralBody.throughQuote?_append` — a literal extends to the quote behind its body
- `isLiteralBody_iff` — the test that the printer makes is for these bodies
- `symbolExtent_append` — a symbol in front of a blank is taken as a whole
-/

namespace GrammarNotation

/-- The text is at its end, or goes on with a blank. -/
def EndsWord (rest : List Char) : Prop :=
  ∀ c ∈ rest.head?, c = ' '

theorem endsWord_nil : EndsWord [] := by
  simp [EndsWord]

theorem endsWord_blank (rest : List Char) : EndsWord (' ' :: rest) := by
  simp [EndsWord]

/-! ### Identifiers -/

/-- Groups of name characters, each behind a hyphen. -/
def hyphenated (groups : List (List Char)) : List Char :=
  groups.flatMap fun group => '-' :: group

/-- **The shape of an identifier**: a character that starts names and name characters, then groups
of one or more name characters, each behind a hyphen. -/
def IsIdentifier (w : List Char) : Prop :=
  ∃ c first groups, w = c :: (first ++ hyphenated groups) ∧ isNameStart c ∧
    (∀ x ∈ first, isNameChar x) ∧ ∀ group ∈ groups, group ≠ [] ∧ ∀ x ∈ group, isNameChar x

section Identifiers

variable {cs rest : List Char}

theorem nameRest_of_endsWord (h : EndsWord rest) : nameRest rest = 0 := by
  cases rest with
  | nil => rfl
  | cons c rest =>
    obtain rfl : c = ' ' := h c rfl
    rfl

theorem nameRest_append (h : ∀ x ∈ cs, isNameChar x) (rest : List Char) :
    nameRest (cs ++ rest) = cs.length + nameRest rest := by
  induction cs with
  | nil => simp
  | cons c cs ih =>
    rw [List.forall_mem_cons] at h
    rw [List.cons_append, nameRest, if_pos h.1, ih h.2, List.length_cons]
    omega

theorem nameRest_hyphen (h : ∀ x ∈ cs, isNameChar x) (ne : cs ≠ []) (rest : List Char) :
    nameRest ('-' :: (cs ++ rest)) = cs.length + 1 + nameRest rest := by
  obtain ⟨c, cs, rfl⟩ := List.exists_cons_of_ne_nil ne
  have isName : isNameChar c := h c List.mem_cons_self
  have hyphen : isNameChar '-' = false := by decide
  rw [nameRest, nameRest_append h, hyphen]
  simp [isName]
  omega

theorem nameRest_hyphenated {groups : List (List Char)}
    (h : ∀ group ∈ groups, group ≠ [] ∧ ∀ x ∈ group, isNameChar x) (rest : List Char) :
    nameRest (hyphenated groups ++ rest) = (hyphenated groups).length + nameRest rest := by
  induction groups with
  | nil => simp [hyphenated]
  | cons group groups ih =>
    rw [List.forall_mem_cons] at h
    have eq : hyphenated (group :: groups) ++ rest =
        '-' :: (group ++ (hyphenated groups ++ rest)) := by
      simp [hyphenated]
    have length : (hyphenated (group :: groups)).length =
        group.length + 1 + (hyphenated groups).length := by
      simp [hyphenated]
      omega
    rw [eq, length, nameRest_hyphen h.1.2 h.1.1, ih h.2]
    omega

theorem IsIdentifier.identifierExtent_append {w : List Char} (h : IsIdentifier w)
    (ends : EndsWord rest) : identifierExtent (w ++ rest) = w.length := by
  obtain ⟨c, first, groups, rfl, start, isFirst, isGroup⟩ := h
  rw [List.cons_append, List.append_assoc, identifierExtent, if_pos start,
    nameRest_append isFirst, nameRest_hyphenated isGroup, nameRest_of_endsWord ends]
  simp

/-- Name characters and hyphens that are taken as a whole fall into groups. -/
theorem exists_groups_of_nameRest (h : nameRest cs = cs.length) :
    ∃ first groups, cs = first ++ hyphenated groups ∧ (∀ x ∈ first, isNameChar x) ∧
      ∀ group ∈ groups, group ≠ [] ∧ ∀ x ∈ group, isNameChar x := by
  induction cs with
  | nil => exact ⟨[], [], rfl, by simp, by simp⟩
  | cons c cs ih =>
    rw [nameRest] at h
    split at h
    next isName =>
      obtain ⟨first, groups, eq, isFirst, isGroup⟩ := ih (Nat.succ.inj h)
      refine ⟨c :: first, groups, congrArg (c :: ·) eq, ?_, isGroup⟩
      exact List.forall_mem_cons.2 ⟨isName, isFirst⟩
    next =>
      split at h
      next hyphen =>
        obtain ⟨rfl, next⟩ := hyphen
        obtain ⟨first, groups, rfl, isFirst, isGroup⟩ := ih (Nat.succ.inj h)
        refine ⟨[], first :: groups, by simp [hyphenated], by simp, ?_⟩
        refine List.forall_mem_cons.2 ⟨⟨?_, isFirst⟩, isGroup⟩
        -- Behind a hyphen comes a name character, and a hyphen is none.
        rintro rfl
        cases groups with
        | nil => simp [hyphenated] at next
        | cons group groups =>
          have hyphen : isNameChar '-' := by simpa [hyphenated] using next
          exact absurd hyphen (by decide)
      next => simp at h

/-- The identifiers are the texts that are taken as a whole. -/
theorem isIdentifier_iff {w : List Char} :
    IsIdentifier w ↔ 0 < identifierExtent w ∧ identifierExtent w = w.length := by
  constructor
  · intro h
    have extent := h.identifierExtent_append endsWord_nil
    rw [List.append_nil] at extent
    obtain ⟨c, first, groups, rfl, -⟩ := h
    exact ⟨by simp [extent], extent⟩
  · rintro ⟨pos, extent⟩
    cases w with
    | nil => simp [identifierExtent] at pos
    | cons c cs =>
      rw [identifierExtent] at extent pos
      split at extent
      next start =>
        obtain ⟨first, groups, rfl, isFirst, isGroup⟩ :=
          exists_groups_of_nameRest (Nat.succ.inj extent)
        exact ⟨c, first, groups, rfl, start, isFirst, isGroup⟩
      next start => simp [start] at pos

end Identifiers

/-! ### Literals -/

/-- A double or a single quote. -/
def IsQuote (quote : Char) : Prop := quote = '"' ∨ quote = '\''

/-- **What may stand between two quotes of one kind**: any character on the line but the quote and
the backslash, and a backslash in front of any character on the line. -/
inductive LiteralBody (quote : Char) : List Char → Prop
  | nil : LiteralBody quote []
  | plain {c : Char} {cs : List Char} : c ≠ quote → c ≠ '\\' → c ≠ '\n' → LiteralBody quote cs →
      LiteralBody quote (c :: cs)
  | escape {c : Char} {cs : List Char} : c ≠ '\n' → LiteralBody quote cs →
      LiteralBody quote ('\\' :: c :: cs)

section Literals

variable {quote : Char} {body : List Char}

theorem IsQuote.ne_backslash (h : IsQuote quote) : quote ≠ '\\' := by
  rcases h with rfl | rfl <;> decide

theorem throughQuote?_quote (cs : List Char) : throughQuote? quote (quote :: cs) = some 1 := by
  rw [throughQuote?.eq_def]
  exact if_pos rfl

theorem throughQuote?_plain {c : Char} (notQuote : c ≠ quote) (notBackslash : c ≠ '\\')
    (notNewline : c ≠ '\n') (cs : List Char) :
    throughQuote? quote (c :: cs) = (throughQuote? quote cs).map (· + 1) := by
  rw [throughQuote?.eq_def]
  simp only [if_neg notQuote, if_neg notBackslash, if_neg notNewline]

theorem throughQuote?_escape {c : Char} (notBackslash : quote ≠ '\\') (notNewline : c ≠ '\n')
    (cs : List Char) :
    throughQuote? quote ('\\' :: c :: cs) = (throughQuote? quote cs).map (· + 2) := by
  rw [throughQuote?.eq_def]
  simp [notBackslash.symm, notNewline]

/-- A literal extends to the quote behind its body, whatever stands behind it. -/
theorem LiteralBody.throughQuote?_append (h : LiteralBody quote body) (isQuote : IsQuote quote)
    (rest : List Char) : throughQuote? quote (body ++ quote :: rest) = some (body.length + 1) := by
  induction h with
  | nil => exact throughQuote?_quote rest
  | plain notQuote notBackslash notNewline _ ih =>
    rw [List.cons_append, throughQuote?_plain notQuote notBackslash notNewline, ih]
    rfl
  | escape notNewline _ ih =>
    rw [List.cons_append, List.cons_append, throughQuote?_escape isQuote.ne_backslash notNewline,
      ih]
    rfl

/-- A closing quote is only found behind a body. -/
theorem exists_body_of_throughQuote? {cs : List Char} {n : Nat}
    (h : throughQuote? quote cs = some n) :
    ∃ body rest, cs = body ++ quote :: rest ∧ n = body.length + 1 ∧ LiteralBody quote body := by
  fun_induction throughQuote? quote cs generalizing n with
  | case1 => simp at h
  | case2 cs =>
    obtain rfl := Option.some.inj h
    exact ⟨[], cs, rfl, rfl, .nil⟩
  | case3 => simp at h
  | case4 => simp at h
  | case5 => simp at h
  | case6 d cs notNewline _ _ ih =>
    obtain ⟨m, eq, rfl⟩ := Option.map_eq_some_iff.1 h
    obtain ⟨body, rest, rfl, rfl, isBody⟩ := ih eq
    exact ⟨'\\' :: d :: body, rest, rfl, rfl, .escape notNewline isBody⟩
  | case7 c cs notQuote notNewline notBackslash ih =>
    obtain ⟨m, eq, rfl⟩ := Option.map_eq_some_iff.1 h
    obtain ⟨body, rest, rfl, rfl, isBody⟩ := ih eq
    exact ⟨c :: body, rest, rfl, rfl, .plain notQuote notBackslash notNewline isBody⟩

/-- The test that the printer makes is for the texts that may stand between the quotes. -/
theorem isLiteralBody_iff (isQuote : IsQuote quote) :
    isLiteralBody quote body ↔ LiteralBody quote body := by
  rw [isLiteralBody, beq_iff_eq]
  constructor
  · intro h
    obtain ⟨body', rest, eq, length, isBody⟩ := exists_body_of_throughQuote? h
    obtain ⟨rfl, -⟩ := List.append_inj eq (Nat.succ.inj length)
    exact isBody
  · intro h
    exact h.throughQuote?_append isQuote []

theorem LiteralBody.literalExtent_append (h : LiteralBody quote body) (isQuote : IsQuote quote)
    (rest : List Char) :
    literalExtent (quote :: (body ++ quote :: rest)) = body.length + 2 := by
  have opens : quote = '"' ∨ quote = '\'' := isQuote
  rw [literalExtent, if_pos opens, h.throughQuote?_append isQuote]
  rfl

end Literals

/-! ### Symbols -/

section Symbols

variable {symbols : List String} {s : String} {cs rest : List Char}

theorem le_symbolExtent (mem : s ∈ symbols) (front : s.toList <+: cs) :
    s.toList.length ≤ symbolExtent symbols cs := by
  induction symbols with
  | nil => cases mem
  | cons r symbols ih =>
    rw [symbolExtent, List.foldr_cons, ← symbolExtent]
    rcases List.mem_cons.1 mem with rfl | mem
    · rw [if_pos (List.isPrefixOf_iff_prefix.2 front)]
      exact Nat.le_max_left _ _
    · split
      · exact Nat.le_trans (ih mem) (Nat.le_max_right _ _)
      · exact ih mem

theorem symbolExtent_le_of_forall {n : Nat}
    (h : ∀ s ∈ symbols, s.toList <+: cs → s.toList.length ≤ n) : symbolExtent symbols cs ≤ n := by
  induction symbols with
  | nil => exact Nat.zero_le n
  | cons r symbols ih =>
    rw [List.forall_mem_cons] at h
    rw [symbolExtent, List.foldr_cons, ← symbolExtent]
    split
    next front =>
      exact Nat.max_le.2 ⟨h.1 (List.isPrefixOf_iff_prefix.1 front), ih h.2⟩
    next => exact ih h.2

/-- A text that stands at the front does not reach beyond a character that it does not have. -/
theorem prefix_of_prefix_append {w : List Char} (front : w <+: cs ++ rest)
    (other : ∀ c ∈ rest.head?, c ∉ w) : w <+: cs := by
  obtain ⟨after, eq⟩ := front
  rcases List.append_eq_append_iff.1 eq with ⟨more, rfl, -⟩ | ⟨more, rfl, rfl⟩
  · exact List.prefix_append w more
  · cases more with
    | nil => simp
    | cons c more => exact absurd (by simp) (other c rfl)

/-- A symbol in front of a blank is taken as a whole, if no symbol holds a blank. -/
theorem symbolExtent_append (mem : s ∈ symbols) (noBlank : ∀ r ∈ symbols, ' ' ∉ r.toList)
    (ends : EndsWord rest) : symbolExtent symbols (s.toList ++ rest) = s.toList.length := by
  have whole : s.toList <+: s.toList ++ rest := List.prefix_append _ _
  refine Nat.le_antisymm ?_ (le_symbolExtent mem whole)
  apply symbolExtent_le_of_forall
  intro r mem' front
  have other : ∀ c ∈ rest.head?, c ∉ r.toList := by
    intro c next
    rw [ends c next]
    exact noBlank r mem'
  exact (prefix_of_prefix_append front other).length_le

end Symbols

end GrammarNotation
