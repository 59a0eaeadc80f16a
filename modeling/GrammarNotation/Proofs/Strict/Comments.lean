import GrammarNotation.Proofs.Strict.Concatenation

/-!
# Comments among the tokens

Whether or not comments are kept, the other tokens are the same. A strict reader has no goal within
a section that takes a comment, or that does without the token in front of which it stands. So where
it finds no fault the comments stand between sections, and they can be left out.

## Main statements

- `Takes.kind_ne_comment` — within a section no comment is taken
- `read_filter_comment` — a strict reader reads the same without the comments
- `Parser.strict_parse_filter_comment` — keeping comments changes nothing but the comments
-/

namespace GrammarNotation

section Strict

variable {m : Mode} {depth : Nat} {g : Goal} {new : List Goal} {d d' : Draft} {t : Token}
  {ts : List Token}

/-- Within a section no comment is taken. -/
theorem Takes.kind_ne_comment (takes : Takes m depth d t g new d') (strict : m.strict)
    (within : g.isWithinSection) : t.kind ≠ .comment := by
  intro comment
  have noSymbol (s : String) : t.isSymbol s = false :=
    Token.isSymbol_eq_false_of_kind_eq comment (by decide)
  cases takes with
  | comment | grammarSection | tokenSection | productionSection => cases within
  | skipEntry lenient | skipPattern lenient => simp [strict] at lenient
  | separator isSymbol | group _ isSymbol | action _ isSymbol | bar isSymbol =>
    simp [noSymbol] at isSymbol
  | grammarName kind | entry kind | pattern kind | production _ kind | nonterminal _ kind
  | terminal _ kind | code kind => simp [comment] at kind

/-- The tokens that the goals of a section take are no comments. -/
theorem ReadingSteps.exists_taken_within {c c' : Configuration} (steps : ReadingSteps m c c')
    (strict : m.strict) (within : ∀ g ∈ c.goals, g.isWithinSection) :
    ∃ taken, c.rest = taken ++ c'.rest ∧ ∀ t ∈ taken, t.kind ≠ .comment := by
  induction steps using Relation.ReflTransGen.head_induction_on with
  | refl => exact ⟨[], rfl, fun t mem => nomatch mem⟩
  | head step _ ih =>
    obtain ⟨taken, split, plain⟩ := ih (step.children_eq within).2
    cases step with
    | @take g goals new d d' t ts takes =>
      refine ⟨t :: taken, congrArg (t :: ·) split, List.forall_mem_cons.2 ⟨?_, plain⟩⟩
      exact takes.kind_ne_comment strict (within g List.mem_cons_self)
    | pass | conclude => exact ⟨taken, split, plain⟩

/-- **A strict reader reads the same without the comments**, if it finds no fault with them. -/
theorem read_filter_comment (strict : m.strict) (ok : (read m [.sections] d ts).fault = none) :
    read m [.sections] d (ts.filter (·.kind ≠ .comment)) = read m [.sections] d ts := by
  induction n : ts.length using Nat.strongRecOn generalizing d ts with
  | _ n ih =>
    cases ts with
    | nil => rfl
    | cons t ts =>
      rw [List.length_cons] at n
      by_cases comment : t.kind = .comment
      · have skipped : read m [.sections] d (t :: ts) = read m [.sections] d ts :=
          read_take (.comment comment) ts
        rw [skipped] at ok ⊢
        rw [List.filter_cons_of_neg (by simp [comment])]
        exact ih ts.length (by omega) ok rfl
      by_cases opens : ∃ r, t.Opens r
      · obtain ⟨r, opens⟩ := opens
        rw [read_opens opens] at ok
        have inner := Outcome.fault_eq_none_of_andThen ok
        rw [Outcome.andThen_of_none inner] at ok
        obtain ⟨taken, split, alone⟩ := exists_read_section_of_strict strict opens inner
        -- What the section takes stays as it is, and the comments behind it are left out.
        have plain : ∀ u ∈ taken, u.kind ≠ .comment := by
          obtain ⟨taken', split', plain⟩ :=
            (steps_of_read inner).exists_taken_within strict opens.isWithinSection
          obtain rfl : taken = taken' := List.append_cancel_right (split.symm.trans split')
          exact plain
        have left : ts.filter (·.kind ≠ .comment) =
            taken ++ (read m r.goals d ts).rest.filter (·.kind ≠ .comment) := by
          conv => lhs; rw [split, List.filter_append]
          rw [List.filter_eq_self.2 fun u mem => decide_eq_true (plain u mem)]
        have shorter := (rest_read_suffix m r.goals d ts).length_le
        rw [List.filter_cons_of_pos (by simp [comment]), left, read_opens opens, alone,
          Outcome.andThen_of_none rfl, read_opens opens, Outcome.andThen_of_none inner]
        exact ih _ (by omega) ok rfl
      · have none : ∀ r, ¬ t.Opens r := fun r h => opens ⟨r, h⟩
        rw [fault_read_of_refuses (refuses_of_not_opens comment none)] at ok
        cases ok

end Strict

namespace Parser

/-- **Keeping comments changes nothing but the comments**: the tokens of a source without its
comments are those with them, the comments left out, and where a strict parser succeeds on tokens
with comments, it succeeds without them with the same tree and the same counter. -/
theorem strict_parse_filter_comment (s : Settings) (source : String) :
    s.vocabulary.tokens false source =
        (s.vocabulary.tokens true source).filter (·.kind ≠ .comment) ∧
      ∀ (ts : List Token) (c : Nat), s.mode.strict →
        ((ofTokens s source ts).parse c).result.isOk →
          let plain := ts.filter (·.kind ≠ .comment)
          ((ofTokens s source plain).parse c).result = ((ofTokens s source ts).parse c).result ∧
            ((ofTokens s source plain).parse c).parser.tree =
              ((ofTokens s source ts).parse c).parser.tree ∧
            ((ofTokens s source plain).parse c).counter =
              ((ofTokens s source ts).parse c).counter := by
  refine ⟨s.vocabulary.tokens_false_eq_filter source, ?_⟩
  intro ts c strict ok plain
  have reading : (ofTokens s source plain).reading c = (ofTokens s source ts).reading c :=
    read_filter_comment strict (isOk_result_parse_iff.1 ok)
  refine ⟨?_, ?_, ?_⟩
  · rw [result_parse, result_parse, reading]
  · rw [tree_parse, tree_parse, reading]
  · rw [counter_parse, counter_parse, reading]

/-- The tokens of `/**/ grammar g; /**/ productions {A: a;} /**/`. -/
def commentedTokens : List Token :=
  [⟨.comment, "/**/", none⟩, ⟨.keyword, "grammar", none⟩, ⟨.identifier, "g", none⟩, .ofSymbol ";",
    ⟨.comment, "/**/", none⟩, ⟨.keyword, "productions", none⟩, .ofSymbol "\x7b",
    ⟨.identifier, "A", none⟩, .ofSymbol ":", ⟨.identifier, "a", none⟩, .ofSymbol ";",
    .ofSymbol "\x7d", ⟨.comment, "/**/", none⟩]

theorem strict_parse_commentedTokens :
    ((ofTokens { mode := { strict := true } } "" commentedTokens).parse 4).result.isOk ∧
      ((ofTokens { mode := { strict := true } } ""
          (commentedTokens.filter (·.kind ≠ .comment))).parse 4).result =
        ((ofTokens { mode := { strict := true } } "" commentedTokens).parse 4).result := by
  have ok : ((ofTokens { mode := { strict := true } } "" commentedTokens).parse 4).result.isOk := rfl
  exact ⟨ok, ((strict_parse_filter_comment { mode := { strict := true } } "").2
    commentedTokens 4 rfl ok).1⟩

end Parser

end GrammarNotation
