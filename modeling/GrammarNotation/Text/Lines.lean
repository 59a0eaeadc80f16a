/-!
# Lines of a text

A text is split into lines at newline characters only, so there is always one line more than
there are newlines.

## Main definitions

- `lines` — the lines of a text
- `lineAt?` — the line with a given number
- `unlines` — lines joined by newlines

## Main statements

- `length_lines` — how many lines there are
- `lines_unlines_cons` — joined lines are split again one by one
-/

namespace GrammarNotation.Text

/-- The lines of a text, without the newlines that end them. -/
def lines : List Char → List (List Char)
  | [] => [[]]
  | c :: cs => if c = '\n' then [] :: lines cs else (lines cs).modifyHead (c :: ·)

@[simp]
theorem lines_nil : lines [] = [[]] := rfl

@[simp]
theorem lines_newline (cs : List Char) : lines ('\n' :: cs) = [] :: lines cs := by
  simp [lines]

theorem lines_cons {c : Char} (h : c ≠ '\n') (cs : List Char) :
    lines (c :: cs) = (lines cs).modifyHead (c :: ·) := by
  simp [lines, h]

theorem lines_of_notMem {cs : List Char} (h : '\n' ∉ cs) : lines cs = [cs] := by
  induction cs with
  | nil => rfl
  | cons c cs ih =>
    rw [List.mem_cons, not_or] at h
    obtain ⟨other, none⟩ := h
    rw [lines_cons (Ne.symm other), ih none]
    rfl

/-- There is one line more than there are newlines. -/
theorem length_lines (cs : List Char) : (lines cs).length = cs.count '\n' + 1 := by
  induction cs with
  | nil => rfl
  | cons c cs ih =>
    by_cases h : c = '\n'
    · simp [h, ih]
    · simp [lines_cons h, ih, List.count_cons_of_ne h]

theorem lines_ne_nil (cs : List Char) : lines cs ≠ [] :=
  List.ne_nil_of_length_pos (by rw [length_lines]; omega)

/-- A newline ends a line, whatever stands behind it. -/
theorem lines_append_newline (cs more : List Char) :
    lines (cs ++ '\n' :: more) = lines cs ++ lines more := by
  induction cs with
  | nil => exact lines_newline more
  | cons c cs ih =>
    by_cases h : c = '\n'
    · rw [h, List.cons_append, lines_newline, lines_newline, ih, List.cons_append]
    · obtain ⟨l, ls, eq⟩ := List.exists_cons_of_ne_nil (lines_ne_nil cs)
      rw [List.cons_append, lines_cons h, lines_cons h, ih, eq]
      rfl

/-- The line with number `n`, the first line being number 1. Numbers below 1 count back from the
end, the last line being number 0, and `none` means that there is no such line. -/
def lineAt? (source : String) (n : Int) : Option String :=
  let all := lines source.toList
  let i := if n < 1 then n - 1 + all.length else n - 1
  if i < 0 then none else all[i.toNat]?.map String.ofList

/-- The lines joined into one text, a newline between each two. -/
def unlines (ls : List String) : String :=
  String.ofList (['\n'].intercalate (ls.map String.toList))

/-- A line without a newline is given back, and the lines joined behind it are split in turn. -/
theorem lines_unlines_cons {l : String} (h : '\n' ∉ l.toList) (l' : String) (ls : List String) :
    lines (unlines (l :: l' :: ls)).toList = l.toList :: lines (unlines (l' :: ls)).toList := by
  have joined : (unlines (l :: l' :: ls)).toList =
      l.toList ++ '\n' :: (unlines (l' :: ls)).toList := by
    simp [unlines, List.intercalate]
  rw [joined, lines_append_newline, lines_of_notMem h]
  rfl

end GrammarNotation.Text
