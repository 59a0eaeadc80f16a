import GrammarNotation.Lexeme.Basic

/-!
# Extents of lexemes

For each class, how many characters a lexeme of that class takes up at the front of a text. The
extent is 0 where no lexeme of the class starts, and no class but the invalid one takes characters
that do not belong to it.

## Main definitions

- `Vocabulary.extent` — the extent of a class at the front of a text
- `Vocabulary.classAt` — the first class in order of precedence that starts there

## Main statements

- `Vocabulary.extent_le_length` — a lexeme does not reach beyond the text
- `Vocabulary.extent_classAt_pos` — some class starts at every character
-/

namespace GrammarNotation

/-! ### Characters -/

/-- The characters that separate lexemes: blank, tab, newline and the three other controls that
move the writing position. -/
def isSpaceChar (c : Char) : Bool :=
  c = ' ' || c = '\t' || c = '\r' || c = '\n' || c = '\x0c' || c = '\x0b'

/-- The characters that may start an identifier: the ASCII letters and the letter epsilon. -/
def isNameStart (c : Char) : Bool :=
  c.isAlpha || c = 'ε'

/-- The characters of which identifiers consist, hyphens apart. -/
def isNameChar (c : Char) : Bool :=
  c.isAlphanum || c = '_' || c = 'ε'

/-! ### Extents by class -/

/-- The length of the longest front part whose characters all satisfy `p`. -/
def runLength (p : Char → Bool) (cs : List Char) : Nat :=
  (cs.takeWhile p).length

/-- The length of the text through the first `*/`, if there is one. -/
def throughClose? : List Char → Option Nat
  | [] => none
  | [_] => none
  | c :: d :: cs =>
    if c = '*' ∧ d = '/' then some 2 else (throughClose? (d :: cs)).map (· + 1)

/-- The extent of a comment: to the end of the line, or through the closing mark. -/
def commentExtent : List Char → Nat
  | '/' :: '/' :: cs => 2 + runLength (· != '\n') cs
  | '/' :: '*' :: cs => (throughClose? cs).elim 0 (2 + ·)
  | _ => 0

/-- The length of the text through the first closing quote on the line that no backslash
protects, if there is one. -/
def throughQuote? (quote : Char) : List Char → Option Nat
  | [] => none
  | c :: cs =>
    if c = quote then some 1
    else if c = '\n' then none
    else if c = '\\' then
      match cs with
      | [] => none
      | d :: cs => if d = '\n' then none else (throughQuote? quote cs).map (· + 2)
    else (throughQuote? quote cs).map (· + 1)

/-- The extent of a literal: from a quote through the next like quote. -/
def literalExtent : List Char → Nat
  | [] => 0
  | c :: cs =>
    if c = '"' ∨ c = '\'' then (throughQuote? c cs).elim 0 (· + 1) else 0

/-- The extent of a number: digits, then a point and digits if digits follow the point. -/
def numberExtent (cs : List Char) : Nat :=
  let whole := runLength Char.isDigit cs
  if whole = 0 then 0
  else
    match cs.drop whole with
    | '.' :: rest =>
      let fraction := runLength Char.isDigit rest
      if fraction = 0 then whole else whole + 1 + fraction
    | _ => whole

/-- How far an identifier goes on: over name characters, and over a hyphen in front of one. -/
def nameRest : List Char → Nat
  | [] => 0
  | c :: cs =>
    if isNameChar c then nameRest cs + 1
    else if c = '-' ∧ (cs.head?.any isNameChar) then nameRest cs + 1
    else 0

/-- The extent of an identifier. -/
def identifierExtent : List Char → Nat
  | [] => 0
  | c :: cs => if isNameStart c then nameRest cs + 1 else 0

/-- The length of the longest of the symbols that stands at the front of the text. -/
def symbolExtent (symbols : List String) (cs : List Char) : Nat :=
  symbols.foldr
    (fun s best => if s.toList.isPrefixOf cs then max s.toList.length best else best) 0

/-! ### The class at the front of a text -/

namespace Vocabulary

/-- How many characters a lexeme of the class takes up at the front of the text, 0 if none of the
class starts there. -/
def extent (v : Vocabulary) : TokenClass → List Char → Nat
  | .space, cs => runLength isSpaceChar cs
  | .comment, cs => commentExtent cs
  | .literal, cs => literalExtent cs
  | .number, cs => numberExtent cs
  | .identifier, cs => identifierExtent cs
  | .symbol, cs => symbolExtent v.symbols cs
  | .invalid, cs => min 1 cs.length
  | .keyword, _ => 0

/-- The classes in the order in which they are tried. -/
def precedence : List TokenClass :=
  [.space, .comment, .literal, .number, .identifier, .symbol, .invalid]

/-- The class of the lexeme at the front of the text. -/
def classAt (v : Vocabulary) (cs : List Char) : TokenClass :=
  (precedence.find? fun k => 0 < v.extent k cs).getD .invalid

end Vocabulary

/-! ### Bounds -/

theorem runLength_le (p : Char → Bool) (cs : List Char) : runLength p cs ≤ cs.length :=
  List.Sublist.length_le (List.takeWhile_sublist p)

theorem throughClose?_le {cs : List Char} {n : Nat} (h : throughClose? cs = some n) :
    n ≤ cs.length := by
  fun_induction throughClose? cs generalizing n with
  | case1 => simp at h
  | case2 => simp at h
  | case3 c d cs close =>
    obtain rfl := Option.some.inj h
    simp
  | case4 c d cs close ih =>
    obtain ⟨m, hm, rfl⟩ := Option.map_eq_some_iff.1 h
    have := ih hm
    simp at this ⊢
    omega

theorem commentExtent_le (cs : List Char) : commentExtent cs ≤ cs.length := by
  fun_cases commentExtent cs with
  | case1 cs =>
    have := runLength_le (· != '\n') cs
    simp only [List.length_cons]
    omega
  | case2 cs =>
    cases h : throughClose? cs with
    | none => simp
    | some n =>
      have := throughClose?_le h
      simp
      omega
  | case3 => exact Nat.zero_le _

theorem throughQuote?_le {quote : Char} {cs : List Char} {n : Nat}
    (h : throughQuote? quote cs = some n) : n ≤ cs.length := by
  fun_induction throughQuote? quote cs generalizing n with
  | case1 => simp at h
  | case2 =>
    obtain rfl := Option.some.inj h
    simp
  | case3 => simp at h
  | case4 => simp at h
  | case5 => simp at h
  | case6 cs _ _ d _ ih =>
    obtain ⟨m, hm, rfl⟩ := Option.map_eq_some_iff.1 h
    have := ih hm
    simp
    omega
  | case7 c cs _ _ _ ih =>
    obtain ⟨m, hm, rfl⟩ := Option.map_eq_some_iff.1 h
    have := ih hm
    simp
    omega

theorem literalExtent_le (cs : List Char) : literalExtent cs ≤ cs.length := by
  cases cs with
  | nil => simp [literalExtent]
  | cons c cs =>
    rw [literalExtent]
    split
    · cases h : throughQuote? c cs with
      | none => simp
      | some n =>
        have := throughQuote?_le h
        simp
        omega
    · exact Nat.zero_le _

theorem numberExtent_le (cs : List Char) : numberExtent cs ≤ cs.length := by
  have whole := runLength_le Char.isDigit cs
  rw [numberExtent]
  split
  · exact Nat.zero_le _
  · split
    · next rest eq =>
      have fraction := runLength_le Char.isDigit rest
      have := congrArg List.length eq
      simp at this
      dsimp only
      split <;> omega
    · exact whole

theorem nameRest_le (cs : List Char) : nameRest cs ≤ cs.length := by
  induction cs with
  | nil => exact Nat.le_refl _
  | cons c cs ih =>
    rw [nameRest]
    split
    · simpa using ih
    · split
      · simpa using ih
      · exact Nat.zero_le _

theorem identifierExtent_le (cs : List Char) : identifierExtent cs ≤ cs.length := by
  cases cs with
  | nil => exact Nat.le_refl _
  | cons c cs =>
    rw [identifierExtent]
    split
    · simpa using nameRest_le cs
    · exact Nat.zero_le _

theorem symbolExtent_le (symbols : List String) (cs : List Char) :
    symbolExtent symbols cs ≤ cs.length := by
  induction symbols with
  | nil => exact Nat.zero_le _
  | cons s symbols ih =>
    rw [symbolExtent, List.foldr_cons]
    split
    · next h => exact Nat.max_le.2 ⟨(List.isPrefixOf_iff_prefix.1 h).length_le, ih⟩
    · exact ih

namespace Vocabulary

theorem extent_le_length (v : Vocabulary) (k : TokenClass) (cs : List Char) :
    v.extent k cs ≤ cs.length := by
  cases k with
  | keyword => exact Nat.zero_le _
  | identifier => exact identifierExtent_le cs
  | literal => exact literalExtent_le cs
  | symbol => exact symbolExtent_le v.symbols cs
  | number => exact numberExtent_le cs
  | comment => exact commentExtent_le cs
  | space => exact runLength_le isSpaceChar cs
  | invalid => exact Nat.min_le_right 1 cs.length

/-- Some class starts at every character. -/
theorem extent_classAt_pos (v : Vocabulary) (c : Char) (cs : List Char) :
    0 < v.extent (v.classAt (c :: cs)) (c :: cs) := by
  rw [classAt]
  cases h : precedence.find? fun k => 0 < v.extent k (c :: cs) with
  | none =>
    have := List.find?_eq_none.1 h .invalid (by decide)
    simp [extent] at this
  | some k => simpa using List.find?_some h

end Vocabulary

end GrammarNotation
