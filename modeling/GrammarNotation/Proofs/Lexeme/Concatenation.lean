import GrammarNotation.Proofs.Lexeme.Relaying
import Mathlib.Data.List.TakeWhile

/-!
# Texts with a newline between them

The tokens of two texts with a newline between them are those of the one and then those of the
other, further down. Only what the first text leaves open could change: a comment that is not
closed is cut as a symbol where the text ends, but goes on where the second text closes it. A
newline ends everything else.

## Main definitions

- `Position.moved`, `Token.moved` — a place, and a token, further down in the same column
- `Lexeme.keptFrom` — the lexemes that become tokens, with their places
- `OpensComment` — the text begins with a comment that it does not close

## Main statements

- `Vocabulary.lexemeAt_append_newline` — a lexeme is the same if a newline follows the text
- `Vocabulary.tokens_append_newline` — the tokens of two texts with a newline between them
-/

namespace GrammarNotation

/-! ### Places further down -/

/-- The place `count` characters and `lines` lines further on, in the same column. -/
def Position.moved (count lines : Int) (p : Position) : Position :=
  ⟨p.index + count, p.line + lines, p.column⟩

/-- The token at the place `count` characters and `lines` lines further on. -/
def Token.moved (count lines : Int) (t : Token) : Token :=
  { t with position := t.position.map (Position.moved count lines) }

section Moved

variable {count lines : Int} {p : Position}

theorem Position.step_moved (c : Char) :
    (p.moved count lines).step c = (p.step c).moved count lines := by
  by_cases newline : c = '\n'
  · simp only [step, moved, if_pos newline, Position.mk.injEq]
    exact ⟨Int.add_right_comm .., Int.add_right_comm .., trivial⟩
  · simp only [step, moved, if_neg newline, Position.mk.injEq]
    exact ⟨Int.add_right_comm .., trivial, trivial⟩

theorem Position.advance_moved (cs : List Char) :
    (p.moved count lines).advance cs = (p.advance cs).moved count lines := by
  induction cs generalizing p with
  | nil => rfl
  | cons c cs ih => rw [advance_cons, advance_cons, step_moved, ih]

/-- Behind a text and a newline the next text starts in the first column. -/
theorem Position.advance_start_newline (cs : List Char) :
    start.advance (cs ++ ['\n']) = start.moved (cs.length + 1) (cs.count '\n' + 1) := by
  have last : start.advance (cs ++ ['\n']) =
      ⟨(start.advance cs).index + 1, (start.advance cs).line + 1, 0⟩ := by
    rw [advance_append, advance_cons, advance_nil, step, if_pos rfl]
  rw [last, index_advance, line_advance]
  simp only [moved, start, Position.mk.injEq, and_true]
  omega

theorem Lexeme.place_moved (ls : List Lexeme) :
    place (p.moved count lines) ls =
      (place p ls).map fun placed => (placed.1.moved count lines, placed.2) := by
  induction ls generalizing p with
  | nil => rfl
  | cons l ls ih => rw [place_cons, place_cons, Position.advance_moved, ih, List.map_cons]

end Moved

/-- The lexemes that become tokens, each with its place. -/
def Lexeme.keptFrom (keepComments : Bool) (p : Position) (ls : List Lexeme) :
    List (Position × Lexeme) :=
  (place p ls).filter (·.2.isKept keepComments)

section Kept

variable {keepComments : Bool} {p : Position} {l : Lexeme} {ls : List Lexeme}

theorem Lexeme.keptFrom_cons_of_pos (kept : l.isKept keepComments) :
    keptFrom keepComments p (l :: ls) = (p, l) :: keptFrom keepComments (p.advance l.text) ls := by
  rw [keptFrom, place_cons, List.filter_cons, if_pos kept, keptFrom]

theorem Lexeme.keptFrom_cons_of_neg (dropped : l.isKept keepComments = false) :
    keptFrom keepComments p (l :: ls) = keptFrom keepComments (p.advance l.text) ls := by
  rw [keptFrom, place_cons, List.filter_cons_of_neg (by simp [dropped]), keptFrom]

end Kept

/-! ### Spaces -/

namespace Vocabulary

variable {v : Vocabulary} {keepComments : Bool} {p : Position} {cs more : List Char}

/-- The spaces at the front of a text only move the places of what stands behind them. -/
theorem keptFrom_cut_dropSpaces (p : Position) (cs : List Char) :
    Lexeme.keptFrom keepComments p (v.cut cs) =
      Lexeme.keptFrom keepComments (p.advance (cs.takeWhile isSpaceChar))
        (v.cut (cs.dropWhile isSpaceChar)) := by
  have split : cs.takeWhile isSpaceChar ++ cs.dropWhile isSpaceChar = cs :=
    List.takeWhile_append_dropWhile
  cases run : cs.takeWhile isSpaceChar with
  | nil =>
    rw [run, List.nil_append] at split
    rw [split, Position.advance_nil]
  | cons c w =>
    have extent : v.extent .space (c :: w ++ cs.dropWhile isSpaceChar) = (c :: w).length := by
      rw [← run, split]
      rfl
    have order : precedence = [] ++ .space :: precedence.tail := rfl
    have lexeme : v.lexemeAt (c :: w ++ cs.dropWhile isSpaceChar) = ⟨.space, c :: w⟩ :=
      lexemeAt_append_of_extent order (by simp) extent (List.cons_ne_nil c w)
    have cut := cut_append (l := ⟨.space, c :: w⟩) (List.cons_ne_nil c w) lexeme
    rw [← run, split, run] at cut
    rw [cut, Lexeme.keptFrom_cons_of_neg rfl]

theorem keptFrom_cut_spaces_append {ws : List Char} (spaces : ∀ c ∈ ws, isSpaceChar c)
    (p : Position) (more : List Char) :
    Lexeme.keptFrom keepComments p (v.cut (ws ++ more)) =
      Lexeme.keptFrom keepComments (p.advance ws) (v.cut more) := by
  rw [keptFrom_cut_dropSpaces, keptFrom_cut_dropSpaces (p.advance ws) more,
    List.takeWhile_append_of_pos spaces, List.dropWhile_append_of_pos spaces,
    Position.advance_append]

end Vocabulary

/-! ### What the end of a text leaves open -/

/-- The text begins with the opening of a comment, and does not close it. -/
def OpensComment (cs : List Char) : Prop :=
  ∃ body, cs = '/' :: '*' :: body ∧ ¬ HasClose body

theorem commentExtent_append_newline {cs : List Char} (closed : ¬ OpensComment cs)
    (more : List Char) : commentExtent (cs ++ '\n' :: more) = commentExtent cs := by
  match cs with
  | [] => exact commentExtent_eq_zero _ (by decide)
  | [c] =>
    have none : commentExtent [c] = 0 := by simp [commentExtent]
    rw [List.singleton_append, none]
    by_cases slash : c = '/'
    · exact slash ▸ commentExtent_slash (by decide) (by decide) more
    · exact commentExtent_eq_zero _ slash
  | c :: d :: cs =>
    simp only [List.cons_append]
    by_cases slash : c = '/'
    · subst slash
      by_cases line : d = '/'
      · subst line
        have run : runLength (· != '\n') (cs ++ '\n' :: more) = runLength (· != '\n') (cs ++ []) :=
          runLength_newline rfl (by simpa using runLength_le (· != '\n') cs) more
        simp only [commentExtent, run, List.append_nil]
      · by_cases block : d = '*'
        · subst block
          have close : HasClose cs := by
            by_contra unclosed
            exact closed ⟨cs, rfl, unclosed⟩
          cases through : throughClose? cs with
          | none => exact absurd close (throughClose?_eq_none_iff.1 through)
          | some n =>
            have whole : throughClose? (cs ++ []) = some n := by rw [List.append_nil, through]
            have longer := throughClose?_append whole (throughClose?_le through) ('\n' :: more)
            simp only [commentExtent, through, longer]
        · rw [commentExtent_slash line block, commentExtent_slash line block]
    · rw [commentExtent_eq_zero _ slash, commentExtent_eq_zero _ slash]

namespace Vocabulary

variable {v : Vocabulary} {keepComments : Bool} {c : Char} {w cs more : List Char}

/-- **A lexeme is the same if a newline follows the text**, unless a comment is open there. -/
theorem lexemeAt_append_newline (plain : ∀ s ∈ v.symbols, '\n' ∉ s.toList)
    (noSpace : isSpaceChar c = false) (closed : ¬ OpensComment (c :: w)) (more : List Char) :
    v.lexemeAt (c :: w ++ '\n' :: more) = v.lexemeAt (c :: w) := by
  have same : ∀ k, v.extent k (c :: w ++ '\n' :: more) = v.extent k (c :: w) := by
    intro k
    by_cases comment : k = .comment
    · subst comment
      exact commentExtent_append_newline closed more
    · have fits : v.extent k (c :: w ++ []) ≤ (c :: w).length := by
        rw [List.append_nil]
        exact v.extent_le_length k _
      have stays : v.extent k (c :: w ++ '\n' :: more) = v.extent k (c :: w ++ []) :=
        extent_newline plain noSpace (fun h => absurd h comment) fits
      rwa [List.append_nil] at stays
  have classAt : v.classAt (c :: w ++ '\n' :: more) = v.classAt (c :: w) := by
    simp only [Vocabulary.classAt, same]
  rw [lexemeAt, lexemeAt, classAt, same,
    List.take_append_of_le_length (v.extent_le_length _ _)]

/-- An open comment is cut as the symbol that opens it. -/
theorem lexemeAt_of_opensComment (h : OpensComment cs) :
    standard.lexemeAt cs = ⟨.symbol, ['/', '*']⟩ := by
  obtain ⟨body, rfl, unclosed⟩ := h
  have order : precedence = [.space, .comment, .literal, .number, .identifier] ++ .symbol ::
    [.invalid] := rfl
  have none : commentExtent ('/' :: '*' :: body) = 0 := by
    rw [commentExtent, throughClose?_eq_none_iff.2 unclosed]
    rfl
  have short : ∀ s ∈ standard.symbols, s.toList.length ≤ 2 := by decide
  have extent : standard.extent .symbol (['/', '*'] ++ body) = 2 := by
    refine Nat.le_antisymm (symbolExtent_le_of_forall fun s mem _ => short s mem) ?_
    exact le_symbolExtent (s := "/*") (by decide) (List.prefix_append ['/', '*'] body)
  refine lexemeAt_append_of_extent order ?_ extent (List.cons_ne_nil _ _)
  simp only [List.forall_mem_cons, List.cons_append, Vocabulary.extent]
  exact ⟨runLength_eq_zero _ (by decide), none, literalExtent_eq_zero _ (by decide),
    numberExtent_eq_zero _ (by decide), identifierExtent_eq_zero _ (by decide), by simp⟩

/-! ### Texts with a newline between them -/

theorem text_eq_takeWhile {l : Lexeme} (lexeme : v.lexemeAt cs = l) (space : l.kind = .space) :
    l.text = cs.takeWhile isSpaceChar := by
  have kind : v.classAt cs = .space := (congrArg Lexeme.kind lexeme).trans space
  have text : cs.take (v.extent (v.classAt cs) cs) = l.text := congrArg Lexeme.text lexeme
  rw [kind] at text
  rw [← text]
  exact (List.prefix_iff_eq_take.1 (List.takeWhile_prefix isSpaceChar)).symm

/-- The lexemes of the first text stay as they are, and those of the second text follow. -/
theorem keptFrom_cut_append_newline (closed : (⟨.symbol, ['/', '*']⟩ : Lexeme) ∉ standard.cut cs)
    (p : Position) (more : List Char) :
    Lexeme.keptFrom keepComments p (standard.cut (cs ++ '\n' :: more)) =
      Lexeme.keptFrom keepComments p (standard.cut cs) ++
        Lexeme.keptFrom keepComments (p.advance (cs ++ ['\n'])) (standard.cut more) := by
  induction cs using cut_induction (v := standard) generalizing p with
  | nil =>
    have space : ∀ c ∈ ['\n'], isSpaceChar c := List.forall_mem_singleton.2 (by decide)
    exact keptFrom_cut_spaces_append space p more
  | cons l rest ne lexeme cut ih =>
    rw [cut, List.mem_cons, not_or] at closed
    have onward := ih closed.2 (p.advance l.text)
    rw [← Position.advance_append, ← List.append_assoc] at onward
    by_cases space : l.kind = .space
    · -- The spaces at the end of the first text grow together with the newline.
      have dropped : l.isKept keepComments = false := by simp [Lexeme.isKept, space]
      have spaces : ∀ c ∈ l.text, isSpaceChar c := by
        intro c mem
        rw [text_eq_takeWhile lexeme space] at mem
        exact List.mem_takeWhile_imp mem
      rw [cut, Lexeme.keptFrom_cons_of_neg dropped, List.append_assoc,
        keptFrom_cut_spaces_append spaces, onward]
    · have kept : l.isKept true := by
        unfold Lexeme.isKept
        split <;> first | rfl | contradiction
      obtain ⟨c, w, text, noSpace⟩ := exists_text_eq_cons lexeme ne kept
      have notOpen : ¬ OpensComment (l.text ++ rest) := by
        intro opens
        exact closed.1 ((lexemeAt_of_opensComment opens).symm.trans lexeme)
      have stays : standard.lexemeAt (l.text ++ rest ++ '\n' :: more) = l := by
        rw [text, List.cons_append] at notOpen lexeme ⊢
        rw [lexemeAt_append_newline (by decide) noSpace notOpen more, lexeme]
      rw [List.append_assoc] at stays
      rw [cut, List.append_assoc, cut_append ne stays]
      by_cases kept : l.isKept keepComments
      · rw [Lexeme.keptFrom_cons_of_pos kept, Lexeme.keptFrom_cons_of_pos kept, onward,
          List.cons_append]
      · rw [Lexeme.keptFrom_cons_of_neg (by simpa using kept),
          Lexeme.keptFrom_cons_of_neg (by simpa using kept), onward]

/-- **The tokens of two texts with a newline between them** are those of the first text and those
of the second one further down, unless the first text leaves a comment open. -/
theorem tokens_append_newline {source more : String}
    (closed : ∀ t ∈ standard.tokens keepComments source, t.isSymbol "/*" = false) :
    standard.tokens keepComments (source ++ "\n" ++ more) =
      standard.tokens keepComments source ++ (standard.tokens keepComments more).map
        (Token.moved (source.toList.length + 1) (source.toList.count '\n' + 1)) := by
  have eq : ∀ source : String, standard.tokens keepComments source =
      (Lexeme.keptFrom keepComments .start (standard.cut source.toList)).map
        fun placed => placed.2.toToken standard.keywords placed.1 := fun _ => rfl
  have notOpen : (⟨.symbol, ['/', '*']⟩ : Lexeme) ∉ standard.cut source.toList := by
    intro mem
    rw [← Lexeme.map_snd_place .start (standard.cut source.toList)] at mem
    obtain ⟨⟨p, l⟩, placed, rfl⟩ := List.mem_map.1 mem
    have isMark : (Lexeme.toToken standard.keywords p ⟨.symbol, ['/', '*']⟩).isSymbol "/*" := rfl
    have token := closed _ (List.mem_map_of_mem (List.mem_filter.2 ⟨placed, rfl⟩))
    rw [isMark] at token
    cases token
  have text : (source ++ "\n" ++ more).toList = source.toList ++ '\n' :: more.toList := by simp
  rw [eq, eq, eq, text, keptFrom_cut_append_newline notOpen, List.map_append,
    Position.advance_start_newline]
  congr 1
  rw [Lexeme.keptFrom, Lexeme.place_moved, List.filter_map, List.map_map, List.map_map]
  rfl

end Vocabulary

end GrammarNotation
