import GrammarNotation.Proofs.Failure.Lookahead
import GrammarNotation.Proofs.Failure.Resuming
import GrammarNotation.Proofs.Lexeme.Placing

/-!
# Reports that point at the token

The report of a fault shows the line of the source in which the offending token starts and a caret
below its first character. The line is found by splitting the source anew, and the caret by the
column, so both rest on the place of the token.

## Main definitions

- `Text.IsLine` — a line of a text and what stands before and behind it
- `Text.PointsAt` — a report with a caret below the character at a place

## Main statements

- `Text.IsLine.lineAt?_eq` — a line is found by the number of newlines before it
- `Fault.exists_report` — a fault at a place behind which a line goes on has such a report
- `Parser.tokens_placed_and_reported` — the places of all tokens, and the reports of all faults
-/

namespace GrammarNotation

namespace Text

/-! ### Lines -/

/-- **A line of a text**, between what stands before and behind it: no newline is in it, and there
is one on either side, unless the text begins or ends there. -/
structure IsLine (above line below : List Char) : Prop where
  newline_notMem : '\n' ∉ line
  begins : above = [] ∨ ∃ cs, above = cs ++ ['\n']
  ends : below = [] ∨ ∃ cs, below = '\n' :: cs

variable {above line below : List Char}

/-- The last line of a text. -/
theorem exists_lastLine (cs : List Char) :
    ∃ above line, cs = above ++ line ∧ '\n' ∉ line ∧
      (above = [] ∨ ∃ cs, above = cs ++ ['\n']) := by
  induction cs with
  | nil => exact ⟨[], [], rfl, List.not_mem_nil, .inl rfl⟩
  | cons c cs ih =>
    obtain ⟨above, line, rfl, none, rfl | ⟨cs', rfl⟩⟩ := ih
    · by_cases newline : c = '\n'
      · exact ⟨[c], line, rfl, none, .inr ⟨[], by rw [newline]; rfl⟩⟩
      · have notMem : '\n' ∉ c :: line :=
          List.not_mem_cons_of_ne_of_not_mem (Ne.symm newline) none
        exact ⟨[], c :: line, rfl, notMem, .inl rfl⟩
    · exact ⟨c :: cs' ++ ['\n'], line, rfl, none, .inr ⟨c :: cs', rfl⟩⟩

/-- The first line of a text. -/
theorem exists_firstLine (cs : List Char) :
    ∃ line below, cs = line ++ below ∧ '\n' ∉ line ∧
      (below = [] ∨ ∃ cs, below = '\n' :: cs) := by
  induction cs with
  | nil => exact ⟨[], [], rfl, List.not_mem_nil, .inl rfl⟩
  | cons c cs ih =>
    by_cases newline : c = '\n'
    · exact ⟨[], c :: cs, rfl, List.not_mem_nil, .inr ⟨cs, by rw [newline]⟩⟩
    · obtain ⟨line, below, rfl, none, ends⟩ := ih
      have notMem : '\n' ∉ c :: line :=
        List.not_mem_cons_of_ne_of_not_mem (Ne.symm newline) none
      exact ⟨c :: line, below, rfl, notMem, ends⟩

/-- A line is the one behind as many others as there are newlines before it. -/
theorem IsLine.getElem?_lines (h : IsLine above line below) :
    (lines (above ++ (line ++ below)))[above.count '\n']? = some line := by
  have first : ∃ others, lines (line ++ below) = line :: others := by
    rcases h.ends with rfl | ⟨cs, rfl⟩
    · exact ⟨[], by rw [List.append_nil, lines_of_notMem h.newline_notMem]⟩
    · exact ⟨lines cs, by rw [lines_append_newline, lines_of_notMem h.newline_notMem]; rfl⟩
  obtain ⟨others, first⟩ := first
  rcases h.begins with rfl | ⟨cs, rfl⟩
  · rw [List.nil_append, first]
    rfl
  · have count : (cs ++ ['\n']).count '\n' = (lines cs).length := by
      rw [length_lines, List.count_append]
      rfl
    rw [List.append_assoc, List.singleton_append, lines_append_newline, first, count,
      List.getElem?_append_right (Nat.le_refl _), Nat.sub_self]
    rfl

theorem IsLine.lineAt?_eq (h : IsLine above line below) {source : String}
    (split : source.toList = above ++ (line ++ below)) :
    lineAt? source (1 + above.count '\n') = some (String.ofList line) := by
  have number : ((1 : Int) + above.count '\n' - 1).toNat = above.count '\n' := by omega
  rw [lineAt?, if_neg (by omega), if_neg (by omega), number, split, h.getElem?_lines]
  rfl

/-! ### Reports -/

/-- **The report points at a place** of the source: its second line is the line of the source in
which the place is, behind four blanks, and the third line has a caret below that place. -/
def PointsAt (report source : String) (p : Position) : Prop :=
  ∃ above line below, IsLine above line below ∧ source.toList = above ++ (line ++ below) ∧
    ∃ column < line.length, p.index = above.length + column ∧
      (lines report.toList)[1]? = some (List.replicate 4 ' ' ++ line) ∧
      (lines report.toList)[2]? = some (List.replicate (4 + column) ' ' ++ ['^'])

theorem newline_notMem_decimal (i : Int) : '\n' ∉ (decimal i).toList := by
  intro mem
  rcases isDigit_of_mem_decimal mem with minus | isDigit
  · exact absurd minus (by decide)
  · exact absurd isDigit (by decide)

end Text

namespace Fault

variable {f : Fault} {p : Position} {file source : String}

/-- The lines of a report, if the place of the token is known and the source has its line. -/
theorem exists_lines_report {line : List Char} {column : Nat} (place : f.position? = some p)
    (found : Text.lineAt? source p.line = some (String.ofList line)) (column_eq : p.column = column)
    (plain : '\n' ∉ file.toList) (none : '\n' ∉ line) :
    ∃ report heading more, f.report? file (some source) = some report ∧
      Text.lines report.toList = heading :: (List.replicate 4 ' ' ++ line) ::
        (List.replicate (4 + column) ' ' ++ ['^']) :: more := by
  have shown : f.report? file (some source) = some (Text.unlines
      ["  File " ++ file ++ ", line " ++ Text.decimal p.line, "    " ++ String.ofList line,
        "    " ++ String.ofList (List.replicate column ' ') ++ "^", f.summary]) := by
    simp only [report?, place, found, column_eq, Option.map_some, Int.toNat_natCast]
  have shownLine : ("    " ++ String.ofList line).toList = List.replicate 4 ' ' ++ line := by
    simp
  have shownCaret : ("    " ++ String.ofList (List.replicate column ' ') ++ "^").toList =
      List.replicate (4 + column) ' ' ++ ['^'] := by
    simp [List.replicate_add]
  have first : '\n' ∉ ("  File " ++ file ++ ", line " ++ Text.decimal p.line).toList := by
    simp [plain, Text.newline_notMem_decimal]
  have second : '\n' ∉ ("    " ++ String.ofList line).toList := by
    simp [none]
  have third : '\n' ∉ ("    " ++ String.ofList (List.replicate column ' ') ++ "^").toList := by
    simp
  refine ⟨_, ("  File " ++ file ++ ", line " ++ Text.decimal p.line).toList,
    Text.lines (Text.unlines [f.summary]).toList, shown, ?_⟩
  rw [Text.lines_unlines_cons first, Text.lines_unlines_cons second,
    Text.lines_unlines_cons third, shownLine, shownCaret]

/-- **A fault has a report that points at its place**, if the line of this place goes on there. -/
theorem exists_report {before after : List Char} {c : Char} (place : f.position? = some p)
    (isBehind : p.IsBehind before) (split : source.toList = before ++ c :: after)
    (visible : c ≠ '\n') (plain : '\n' ∉ file.toList) :
    ∃ report, f.report? file (some source) = some report ∧ Text.PointsAt report source p := by
  obtain ⟨above, front, rfl, noneFront, begins⟩ := Text.exists_lastLine before
  obtain ⟨back, below, rfl, noneBack, ends⟩ := Text.exists_firstLine after
  have isLine : Text.IsLine above (front ++ c :: back) below := by
    refine ⟨?_, begins, ends⟩
    simp [noneFront, noneBack, Ne.symm visible]
  have split' : source.toList = above ++ ((front ++ c :: back) ++ below) := by
    rw [split]
    simp
  have number : p.line = 1 + above.count '\n' := by
    rw [isBehind.line_eq, List.count_append, List.count_eq_zero.2 noneFront]
    rfl
  have column : p.column = front.length := by
    rcases begins with rfl | ⟨cs, rfl⟩
    · rw [isBehind.column_of_notMem noneFront, isBehind.index_eq]
      rfl
    · rw [isBehind.column_of_newline cs front (by simp) noneFront, isBehind.index_eq]
      simp only [List.length_append, List.length_cons, List.length_nil]
      push_cast
      omega
  have found : Text.lineAt? source p.line = some (String.ofList (front ++ c :: back)) := by
    rw [number]
    exact isLine.lineAt?_eq split'
  obtain ⟨report, heading, more, shown, lines⟩ :=
    exists_lines_report place found column plain isLine.newline_notMem
  refine ⟨report, shown, above, _, below, isLine, split', front.length, by simp, ?_, ?_, ?_⟩
  · rw [isBehind.index_eq, List.length_append]
    push_cast
    rfl
  · rw [lines]
    rfl
  · rw [lines]
    rfl

end Fault

/-! ### Parsers -/

namespace Parser

variable {f : Fault}

/-- A fault is about one of the tokens of the parser, unless they come to their end. -/
theorem exists_mem_of_failed {p : Parser} {c : Nat} (failed : (p.parse c).result = .error f)
    (notEnd : f.kind ≠ .endOfInput) : ∃ t ∈ p.stream.toList, f.token = some t := by
  obtain ⟨taken, t, us, -, ahead, token, -⟩ :=
    exists_refused_of_read (result_parse_eq_error_iff.1 failed) notEnd
  refine ⟨t, ?_, token⟩
  rw [TokenStream.toList, ahead]
  simp

/-- **Every token has the place where its raw text starts, and every report of a fault points
there**: the tokens of a source stand for its lexemes in turn, and where a parser of these tokens
comes to a fault in one of them, whatever it parsed before, the report has the line of the source
with the first character of this token and a caret below this character. -/
theorem tokens_placed_and_reported (s : Settings) (source : String) (keepComments : Bool) :
    (∀ n t, (s.vocabulary.tokens keepComments source)[n]? = some t →
      ∃ front l back p, s.vocabulary.StandsFor source t p front l back ∧
        l.isKept keepComments ∧ front.countP (·.isKept keepComments) = n) ∧
      ∀ counters k c f file,
        let tokens := s.vocabulary.tokens keepComments source
        let failing := ((ofTokens s source tokens).afterParses counters k).parse c
        failing.result = .error f → f.kind ≠ .endOfInput → '\n' ∉ file.toList →
          ∃ t ∈ tokens, ∃ p, f.token = some t ∧ t.position = some p ∧
            ∃ report, f.report? file (some failing.parser.source) = some report ∧
              Text.PointsAt report source p := by
  refine ⟨fun n t => Vocabulary.exists_standsFor, ?_⟩
  intro counters k c f file tokens failing failed notEnd plain
  obtain ⟨t, mem, token⟩ := exists_mem_of_failed failed notEnd
  rw [toList_afterParses] at mem
  have mem : t ∈ tokens := by simpa [ofTokens] using mem
  obtain ⟨n, turn⟩ := List.mem_iff_getElem?.1 mem
  obtain ⟨front, l, back, p, stands, kept, -⟩ := Vocabulary.exists_standsFor turn
  obtain ⟨char, w, text, noSpace⟩ := stands.exists_text_eq_cons kept
  have visible : char ≠ '\n' := by
    rintro rfl
    exact absurd noSpace (by decide)
  have split : source.toList =
      (front.map Lexeme.text).flatten ++ char :: (w ++ (back.map Lexeme.text).flatten) := by
    rw [← List.cons_append, ← text]
    exact stands.source_eq
  have place : f.position? = some p := by
    rw [Fault.position?, token, Option.bind_some, stands.position_eq]
  have same : failing.parser.source = source := source_afterParses _ counters k
  rw [same]
  exact ⟨t, mem, p, token, stands.position_eq,
    Fault.exists_report place stands.isBehind split visible plain⟩

/-- A symbol that goes on in the next line, behind a comment that does so. -/
theorem tokens_placed_and_reported_overlong :
    let s : Settings := { vocabulary := ⟨[";\n;"], ["grammar"]⟩ }
    let source := "grammar/*\n*/ ;\n;"
    let fault := Fault.unrecognized ⟨.symbol, ";\n;", some ⟨13, 2, 3⟩⟩ Phrase.grammar
    ((ofSource s source).1.parse 0).result = .error fault ∧
      ∃ report, fault.report? "g" (some source) = some report ∧
        Text.PointsAt report source ⟨13, 2, 3⟩ := by
  intro s source fault
  have failed : ((ofSource s source).1.parse 0).result = .error fault := by decide +kernel
  obtain ⟨t, -, p, token, place, report⟩ :=
    (tokens_placed_and_reported s source false).2 (fun _ => 0) 0 0 fault "g" failed
      (by decide) (by decide)
  obtain rfl := Option.some.inj token
  obtain rfl := Option.some.inj place
  exact ⟨failed, report⟩

end Parser

end GrammarNotation
