import GrammarNotation.Proofs.Lenient.Conservation
import GrammarNotation.Proofs.Lexeme.Legible
import GrammarNotation.Proofs.Text.Codes
import GrammarNotation.Proofs.Reading.Parse
import GrammarNotation.Session.Request

/-!
# Trees whose nodes can be told apart

The description of a node holds the texts of one or two tokens. It says which node it is as long as
it stays on one line, and as long as the name of a token has no comma, for then the first comma
stands between the name and the pattern. All trees that parsers build are of this kind.

## Main definitions

- `Role.IsLegible`, `Tree.IsLegible` — a role, and a tree, that its description tells
- `Parser.AtWork` — a parser of which anything was asked, any number of times
- `Tree.IsParsed` — a tree that a parser at work returned

## Main statements

- `Role.eq_of_description_eq` — different roles have different descriptions
- `isLegible_read` — a reading of legible tokens builds a legible draft
- `Tree.IsParsed.isLegible` — every tree that is returned is legible
-/

namespace GrammarNotation

/-! ### Roles -/

/-- A role with a description of one line, and without a comma in the name of a token. -/
structure Role.IsLegible (r : Role) : Prop where
  isDescribed : r.isDescribed
  oneLine : '\n' ∉ r.description.toList
  noComma : ∀ name pattern, r = .token name pattern → ',' ∉ name.toList

namespace Role

/-- The first comma stands behind the name of a token. -/
theorem token_eq_of_description_eq {name name' pattern pattern' : String}
    (h : (token name pattern).description = (token name' pattern').description)
    (noComma : ',' ∉ name.toList) (noComma' : ',' ∉ name'.toList) :
    token name pattern = token name' pattern' := by
  have chars := congrArg String.toList h
  simp only [description, description?, Option.getD_some, String.toList_append,
    List.append_assoc, List.append_cancel_left_eq] at chars
  obtain ⟨names, patterns⟩ := Text.append_inj_of_notMem noComma noComma' chars
  have patterns := List.append_cancel_right (List.append_cancel_left patterns)
  rw [String.toList_inj.1 names, String.toList_inj.1 patterns]

/-- **Different roles have different descriptions**, where these are legible. -/
theorem eq_of_description_eq {r q : Role} (hr : r.IsLegible) (hq : q.IsLegible)
    (h : r.description = q.description) : r = q := by
  have chars := congrArg String.toList h
  -- Any two formats differ in one of their first two characters.
  cases r <;> cases q <;> simp [description, description?, String.toList_inj] at chars
  case token.token =>
    exact token_eq_of_description_eq h (hr.noComma _ _ rfl) (hq.noComma _ _ rfl)
  case production.production number number' =>
    exact congrArg production (Text.decimal_injective chars)
  case mark.mark m m' =>
    exact congrArg mark (Mark.text_injective chars)
  all_goals first | rfl | exact congrArg _ chars

/-- A label and a text are legible if the text is on one line. -/
theorem isLegible_of_label {r : Role} (label : String) {text : String}
    (eq : r.description? = some (label ++ text)) (other : ∀ name pattern, r ≠ token name pattern)
    (plain : '\n' ∉ label.toList) (oneLine : '\n' ∉ text.toList) : r.IsLegible where
  isDescribed := by simp [Role.isDescribed, eq]
  oneLine := by simp [description, eq, plain, oneLine]
  noComma name pattern h := absurd h (other name pattern)

theorem isLegible_mark (m : Mark) : (mark m).IsLegible := by
  refine isLegible_of_label "Punctuation: " rfl (by simp) (by decide) ?_
  rcases m with _ | b | b
  · decide
  all_goals cases b <;> decide

theorem isLegible_token {name pattern : String} (noNewline : '\n' ∉ name.toList)
    (noComma : ',' ∉ name.toList) (oneLine : '\n' ∉ pattern.toList) :
    (token name pattern).IsLegible := by
  refine ⟨rfl, by simp [description, description?, noNewline, oneLine], ?_⟩
  rintro _ _ ⟨⟩
  exact noComma

theorem isLegible_production (number : Int) : (production number).IsLegible := by
  refine ⟨rfl, ?_, fun _ _ h => Role.noConfusion h⟩
  have noDigit : ∀ n, '\n' ∉ Text.digits n := by
    intro n mem
    exact absurd (Text.isDigit_of_mem_digits mem) (by decide)
  cases number <;> simp [description, description?, Text.decimal, noDigit]

theorem isLegible_root : root.IsLegible :=
  ⟨rfl, by decide, fun _ _ h => Role.noConfusion h⟩

end Role

/-! ### Trees -/

namespace Tree

/-- Every role in the trees of a list is legible. -/
def AllLegible (ts : List Tree) : Prop := ∀ u ∈ preorderAll ts, u.role.IsLegible

/-- Every role in a tree is legible. -/
def IsLegible (t : Tree) : Prop := ∀ u ∈ t.preorder, u.role.IsLegible

variable {r : Role} {t : Tree} {ts us : List Tree}

@[simp]
theorem allLegible_nil : AllLegible [] := by
  simp [AllLegible, preorderAll]

@[simp]
theorem allLegible_append : AllLegible (ts ++ us) ↔ AllLegible ts ∧ AllLegible us := by
  simp [AllLegible, preorderAll_append, or_imp, forall_and]

theorem isLegible_node : (node r ts).IsLegible ↔ r.IsLegible ∧ AllLegible ts := by
  simp [IsLegible, AllLegible, preorder]

theorem allLegible_cons : AllLegible (t :: ts) ↔ t.IsLegible ∧ AllLegible ts := by
  simp [AllLegible, IsLegible, preorderAll, or_imp, forall_and]

theorem allLegible_singleton : AllLegible [node r ts] ↔ r.IsLegible ∧ AllLegible ts := by
  rw [allLegible_cons, isLegible_node]
  simp

theorem allLegible_leaf (h : r.IsLegible) : AllLegible [leaf r] :=
  allLegible_singleton.2 ⟨h, allLegible_nil⟩

theorem IsLegible.isDescribed (h : t.IsLegible) : t.isDescribed :=
  List.all_eq_true.2 fun u mem => (h u mem).isDescribed

end Tree

/-! ### Drafts -/

/-- Every role in a draft is legible. -/
structure Draft.IsLegible (d : Draft) : Prop where
  children : Tree.AllLegible d.children
  pending : Tree.AllLegible d.pending
  body : Tree.AllLegible d.body

/-- A goal that puts the name of a token into the tree knows a legible one. -/
def Goal.IsLegible : Goal → Prop
  | .pattern name => '\n' ∉ name.toList ∧ ',' ∉ name.toList
  | _ => True

namespace Draft.IsLegible

variable {d : Draft} (h : d.IsLegible)
include h

theorem attach {r : Role} (legible : r.IsLegible) : (d.attach r).IsLegible :=
  ⟨h.children, h.pending, Tree.allLegible_append.2 ⟨h.body, Tree.allLegible_leaf legible⟩⟩

theorem add {r : Role} (legible : r.IsLegible) : (d.add (.leaf r)).IsLegible :=
  ⟨h.children, Tree.allLegible_append.2 ⟨h.pending, Tree.allLegible_leaf legible⟩, h.body⟩

theorem note (n : Notice) : (d.note n).IsLegible :=
  ⟨h.children, h.pending, h.body⟩

theorem beginProduction {name : String} (legible : (Role.head name).IsLegible) :
    (d.beginProduction name).IsLegible :=
  ⟨h.children, h.pending, Tree.allLegible_leaf legible⟩

theorem endProduction (number : Nat) (name : String) : (d.endProduction number name).IsLegible := by
  have node : Tree.AllLegible [.node (.production number) d.body] :=
    Tree.allLegible_singleton.2 ⟨Role.isLegible_production number, h.body⟩
  exact ⟨h.children, Tree.allLegible_append.2 ⟨h.pending, node⟩, Tree.allLegible_nil⟩

theorem commit : d.commit.IsLegible :=
  ⟨Tree.allLegible_append.2 ⟨h.children, h.pending⟩, Tree.allLegible_nil, h.body⟩

end Draft.IsLegible

/-! ### Readings -/

section Reading

variable {m : Mode} {depth : Nat} {g : Goal} {goals new : List Goal} {d d' : Draft} {t : Token}
  {ts : List Token}

theorem Takes.isLegible (takes : Takes m depth d t g new d') (ht : t.IsLegible)
    (hg : g.IsLegible) (hd : d.IsLegible) : d'.IsLegible := by
  cases takes with
  | grammarName kind =>
    exact hd.add (Role.isLegible_of_label "Grammar: " rfl (by simp) (by decide)
      (ht.identifier kind).1)
  | skipEntry | skipPattern => exact hd.note _
  | pattern kind => exact hd.add (Role.isLegible_token hg.1 hg.2 (ht.literal kind))
  | production _ kind =>
    exact hd.beginProduction (Role.isLegible_of_label "lhs: " rfl (by simp) (by decide)
      (ht.identifier kind).1)
  | nonterminal _ kind =>
    exact hd.attach (Role.isLegible_of_label "Nonterminal: " rfl (by simp) (by decide)
      (ht.identifier kind).1)
  | terminal _ kind =>
    exact hd.attach (Role.isLegible_of_label "Terminal: " rfl (by simp) (by decide)
      (ht.literal kind))
  | code kind =>
    exact hd.attach (Role.isLegible_of_label "Semantic Action: " rfl (by simp) (by decide)
      (ht.literal kind))
  | group | bar => exact hd.attach (Role.isLegible_mark _)
  | _ => exact hd

theorem Goal.isLegible_of_readsEntries (h : g.readsEntries = false) : g.IsLegible := by
  cases g with
  | pattern => cases h
  | _ => trivial

/-- The name of a token waits in a goal until its pattern is read. -/
theorem Takes.goal_isLegible (takes : Takes m depth d t g new d') (ht : t.IsLegible) :
    ∀ g' ∈ new, g'.IsLegible := by
  cases takes with
  | entry kind => simpa [Goal.IsLegible] using ht.identifier kind
  | production begins =>
    have after := Goal.isWithinSection_of_afterProduction? begins
    simpa [Goal.IsLegible] using fun g' mem => Goal.isLegible_of_readsEntries (after g' mem).2
  | nonterminal begins | terminal begins | group begins | action begins =>
    have after := Goal.isWithinSection_of_afterFactor? begins
    simpa [Goal.IsLegible] using fun g' mem => Goal.isLegible_of_readsEntries (after g' mem).2
  | _ => simp [Goal.IsLegible, Rule.goals]

theorem Passes.isLegible (passes : Passes m d t g d') (hd : d.IsLegible) : d'.IsLegible := by
  cases passes with
  | pattern => exact hd.note _
  | closing => exact hd.attach (Role.isLegible_mark _)
  | endProduction => exact hd.endProduction _ _
  | commit => exact hd.commit
  | _ => exact hd

theorem Concludes.isLegible (concludes : Concludes m d g d') (hd : d.IsLegible) :
    d'.IsLegible := by
  cases concludes with
  | closing => exact hd.attach (Role.isLegible_mark _)
  | endProduction => exact hd.endProduction _ _
  | commit => exact hd.commit
  | _ => exact hd

/-- A moment in a reading at which everything is legible that is, or will be, in the tree. -/
structure Configuration.IsLegible (c : Configuration) : Prop where
  goals : ∀ g ∈ c.goals, g.IsLegible
  draft : c.draft.IsLegible
  rest : ∀ t ∈ c.rest, t.IsLegible

theorem ReadingStep.isLegible {c c' : Configuration} (step : ReadingStep m c c')
    (h : c.IsLegible) : c'.IsLegible := by
  obtain ⟨hg, hd, ht⟩ := h
  cases step with
  | take takes =>
    rw [List.forall_mem_cons] at hg ht
    refine ⟨?_, takes.isLegible ht.1 hg.1 hd, ht.2⟩
    exact List.forall_mem_append.2 ⟨takes.goal_isLegible ht.1, hg.2⟩
  | pass passes => exact ⟨(List.forall_mem_cons.1 hg).2, passes.isLegible hd, ht⟩
  | conclude done =>
    have concludes := concludes_of_conclude_eq done
    exact ⟨(List.forall_mem_cons.1 hg).2, concludes.isLegible hd, ht⟩

/-- **A reading of legible tokens builds a legible draft**, whether or not it ends in a fault. -/
theorem isLegible_read (m : Mode) (hg : ∀ g ∈ goals, g.IsLegible) (hd : d.IsLegible)
    (ht : ∀ t ∈ ts, t.IsLegible) : (read m goals d ts).draft.IsLegible := by
  obtain ⟨c, steps, stops⟩ := exists_stops_of_read m goals d ts
  rw [stops.draft_eq]
  exact (steps.keeps ReadingStep.isLegible ⟨hg, hd, ht⟩).draft

theorem Rule.goals_isLegible (r : Rule) : ∀ g ∈ r.goals, g.IsLegible := by
  cases r <;> simp [Rule.goals, Goal.IsLegible]

end Reading

/-! ### Parsers -/

namespace Parser

/-- **A parser that can occur**: one in front of a source, with comments or without, or one of
which something was asked since then, with any counter and with any reply. -/
inductive AtWork : Parser → Prop
  | opened (s : Settings) (source : String) : AtWork (ofSource s source).1
  | commented {p : Parser} : AtWork p → AtWork p.keepComments.1
  | asked {p : Parser} (counter : Nat) (request : Request) : AtWork p →
      AtWork (p.answer counter request).parser

/-- Everything is legible that a parser has read, or is going to read. -/
structure IsLegible (p : Parser) : Prop where
  children : Tree.AllLegible p.children
  scratch : Tree.AllLegible p.scratch
  ahead : ∀ t ∈ p.stream.ahead, t.IsLegible

variable {p : Parser} (h : p.IsLegible)
include h

theorem IsLegible.after {goals : List Goal} (hg : ∀ g ∈ goals, g.IsLegible) {body : List Tree}
    (hb : Tree.AllLegible body) (counter : Nat) :
    let o := read p.mode goals (.resume p.children body counter) p.stream.ahead
    (p.after o).IsLegible ∧ Tree.AllLegible o.draft.body := by
  intro o
  have draft : o.draft.IsLegible :=
    isLegible_read p.mode hg ⟨h.children, Tree.allLegible_nil, hb⟩ h.ahead
  have rest : o.rest <:+ p.stream.ahead := rest_read_suffix _ _ _ _
  exact ⟨⟨draft.children, h.scratch, fun t mem => h.ahead t (rest.subset mem)⟩, draft.body⟩

theorem IsLegible.readRule (r : Rule) (counter : Nat) :
    (p.readRule r counter).parser.IsLegible := by
  have body : Tree.AllLegible (if r.fillsScratch then p.scratch else []) := by
    split
    · exact h.scratch
    · exact Tree.allLegible_nil
  obtain ⟨⟨children, -, ahead⟩, body'⟩ := h.after r.goals_isLegible body counter
  refine ⟨children, ?_, ahead⟩
  simp only [Parser.readRule]
  by_cases fills : r.fillsScratch
  · simpa only [if_pos fills] using body'
  · rw [if_neg fills]
    exact h.scratch

theorem IsLegible.readToken (phrase : String) (counter : Nat) :
    (p.readToken phrase counter).parser.IsLegible := by
  rw [Parser.readToken]
  split
  · exact h
  · next t stream next =>
    have ahead : p.stream.ahead = t :: stream.ahead := (TokenStream.toList_of_next? next).2.1
    refine ⟨h.children, h.scratch, ?_⟩
    intro u mem
    exact h.ahead u (ahead ▸ List.mem_cons_of_mem t mem)

theorem IsLegible.answer (counter : Nat) (request : Request) :
    (p.answer counter request).parser.IsLegible := by
  cases request with
  | parse => exact h.readRule .description counter
  | rule r => exact h.readRule r counter
  | nextToken phrase => exact h.readToken phrase counter
  | separator s => exact (h.after (by simp [Goal.IsLegible]) Tree.allLegible_nil counter).1
  | _ => exact h

omit h in
theorem AtWork.isLegible (h : p.AtWork) : p.IsLegible := by
  induction h with
  | opened s source =>
    exact ⟨Tree.allLegible_nil, Tree.allLegible_nil,
      fun t mem => Vocabulary.isLegible_of_mem_tokens mem⟩
  | commented _ ih =>
    exact ⟨ih.children, ih.scratch, fun t mem => Vocabulary.isLegible_of_mem_tokens mem⟩
  | asked counter request _ ih => exact ih.answer counter request

end Parser

/-- A tree that a successful parse returns, whatever was asked of the parser before. -/
def Tree.IsParsed (t : Tree) : Prop :=
  ∃ (p : Parser) (counter : Nat), p.AtWork ∧ (p.parse counter).result = .ok t

/-- **Every tree that is returned is legible.** -/
theorem Tree.IsParsed.isLegible {t : Tree} (h : t.IsParsed) : t.IsLegible := by
  obtain ⟨p, counter, atWork, ok⟩ := h
  have legible := atWork.isLegible.answer counter .parse
  rw [Parser.result_parse] at ok
  cases fault : (p.reading counter).fault with
  | none =>
    rw [fault] at ok
    obtain rfl := Except.ok.inj ok
    exact Tree.isLegible_node.2 ⟨Role.isLegible_root, legible.children⟩
  | some f =>
    rw [fault] at ok
    cases ok

end GrammarNotation
