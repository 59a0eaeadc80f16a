import GrammarNotation.Proofs.Lenient.Conservation
import GrammarNotation.Proofs.Lenient.Refinement
import GrammarNotation.Proofs.Lenient.Rounds

/-!
# Entries that are passed over

A round of the entries that warns leaves the reader where it was. So the tokens of such rounds may
be left out, and the tree has what is left.

## Main definitions

- `marked` — the tokens of a reading, each with whether it is passed over
- `kept`, `skipped` — those that are not passed over, and those that are
- `Parser.Conserves` — a parse that loses nothing but what it warns of

## Main statements

- `kept_round_cases` — a round is left out, or it is kept and read in the same way
- `read_kept` — what is passed over may be left out
- `Parser.lenient_parse_conserves` — lenient parsing loses nothing but what it warns of

## Design notes

The opening brace of a section is optional, so the first token that is kept behind it must not be a
brace; none is, since a brace is no entry.
-/

namespace GrammarNotation

/-- The tokens of a reading, each with whether it is passed over: the entries of a token section
are read in rounds, and a round that warns passes over all the tokens that it takes. -/
def marked (m : Mode) : List Goal → Draft → List Token → List (Token × Bool)
  | g :: goals, d, t :: ts =>
    match react m (Goal.openGroups goals) g d t with
    | .take new d' =>
      if g = .entries then
        -- What a round sets in front of further entries is read on its own.
        let o := read m new.dropLast d' ts
        (t :: ts.take (ts.length - o.rest.length)).map (·, o.draft.warnings != d.warnings) ++
          marked m (g :: goals) o.draft o.rest
      else (t, false) :: marked m (new ++ goals) d' ts
    | .pass d' => marked m goals d' (t :: ts)
    | .refuse _ _ => (t :: ts).map (·, false)
  | _, _, ts => ts.map (·, false)
termination_by goals _ ts => (ts.length, goals.length)
decreasing_by
  · have shorter := (rest_read_suffix m new.dropLast d' ts).length_le
    simp [Prod.lex_def]
    omega
  · simp [Prod.lex_def]
  · simp [Prod.lex_def]

/-- The tokens of a reading that are passed over. -/
def skipped (m : Mode) (goals : List Goal) (d : Draft) (ts : List Token) : List Token :=
  ((marked m goals d ts).filter (·.2)).map (·.1)

/-- The tokens of a reading without those that are passed over. -/
def kept (m : Mode) (goals : List Goal) (d : Draft) (ts : List Token) : List Token :=
  ((marked m goals d ts).filter (!·.2)).map (·.1)

/-! ### Marks -/

section Marked

variable {m : Mode} {g : Goal} {goals new : List Goal} {d d' : Draft} {t : Token}
  {ts : List Token}

theorem map_fst_mark (ts : List Token) (w : Bool) : (ts.map (·, w)).map Prod.fst = ts := by
  simp [Function.comp_def]

theorem filter_mark (q : Bool → Bool) (ts : List Token) (w : Bool) :
    ((ts.map (·, w)).filter fun marked => q marked.2).map Prod.fst = if q w then ts else [] := by
  cases h : q w with
  | false => simp [h]
  | true => rw [List.filter_eq_self.2 (by simp [h]), map_fst_mark, if_pos rfl]

theorem take_front {taken us : List Token} (split : ts = taken ++ us) :
    ts.take (ts.length - us.length) = taken := by
  subst split
  simp

/-- The marks are put on the tokens as they stand. -/
theorem map_fst_marked (m : Mode) (goals : List Goal) (d : Draft) (ts : List Token) :
    (marked m goals d ts).map Prod.fst = ts := by
  fun_induction marked m goals d ts with
  | case1 goals d t ts new d' o h ih =>
    obtain ⟨taken, split⟩ : o.rest <:+ ts := rest_read_suffix m new.dropLast d' ts
    rw [List.map_append, ih, take_front split.symm, map_fst_mark, List.cons_append, split]
  | case2 g goals d t ts new d' h other ih => rw [List.map_cons, ih]
  | case3 g goals d t ts d' h ih => exact ih
  | case4 => exact map_fst_mark _ _
  | case5 => exact map_fst_mark _ _

theorem kept_nil (m : Mode) (d : Draft) (ts : List Token) : kept m [] d ts = ts := by
  rw [kept, marked]
  · exact filter_mark not ts false
  · exact fun g goals t us eq => nomatch eq

theorem kept_end (m : Mode) (goals : List Goal) (d : Draft) : kept m goals d [] = [] := by
  cases goals <;> simp [kept, marked]

theorem kept_take (takes : Takes m (Goal.openGroups goals) d t g new d') (other : g ≠ .entries) :
    kept m (g :: goals) d (t :: ts) = t :: kept m (new ++ goals) d' ts := by
  simp [kept, marked, react_of_takes takes, other]

theorem kept_pass (passes : Passes m d t g d') :
    kept m (g :: goals) d (t :: ts) = kept m goals d' (t :: ts) := by
  simp [kept, marked, react_of_passes passes]

theorem kept_refuse {f : Fault} {isTaken : Bool}
    (refuses : Refuses m (Goal.openGroups goals) t g f isTaken) :
    kept m (g :: goals) d (t :: ts) = t :: ts := by
  rw [kept, marked, react_of_refuses refuses]
  exact filter_mark not (t :: ts) false

/-- A round of the entries is kept as a whole, unless it warns. -/
theorem kept_round {taken : List Token}
    (takes : Takes m (Goal.openGroups goals) d t .entries new d')
    (split : ts = taken ++ (read m new.dropLast d' ts).rest) :
    kept m (.entries :: goals) d (t :: ts) =
      (if (read m new.dropLast d' ts).draft.warnings = d.warnings then t :: taken else []) ++
        kept m (.entries :: goals) (read m new.dropLast d' ts).draft
          (read m new.dropLast d' ts).rest := by
  have marks : marked m (.entries :: goals) d (t :: ts) =
      (t :: taken).map (·, (read m new.dropLast d' ts).draft.warnings != d.warnings) ++
        marked m (.entries :: goals) (read m new.dropLast d' ts).draft
          (read m new.dropLast d' ts).rest := by
    rw [marked, react_of_takes takes, ← take_front split]
    rfl
  rw [kept, marks, List.filter_append, List.map_append, filter_mark not]
  by_cases calm : (read m new.dropLast d' ts).draft.warnings = d.warnings <;> simp [calm, kept]

end Marked

/-! ### Readings without what is passed over -/

section Kept

open Goal

variable {m : Mode} {g : Goal} {goals new : List Goal} {d d' : Draft} {t : Token}
  {ts : List Token}

/-- **A round is left out, or it is kept** and then it is read in the same way without the warnings
in front of it. -/
theorem kept_round_cases (lenient : m.strict = false) (closed : openGroups goals = 0)
    (takes : Takes m (openGroups goals) d t .entries new d')
    (ok : (read m new.dropLast d' ts).fault = none) :
    let o := read m new.dropLast d' ts
    let onward := kept m (.entries :: goals) o.draft o.rest
    kept m (.entries :: goals) d (t :: ts) = onward ∧ o.draft.quiet = d.quiet ∨
      t.kind = .identifier ∧ ∃ taken, kept m (.entries :: goals) d (t :: ts) =
          t :: (taken ++ onward) ∧
        ∀ us, read m (.entries :: goals) d.quiet (t :: (taken ++ us)) =
          read m (.entries :: goals) o.draft.quiet us := by
  rcases round_cases lenient takes ok with
    ⟨warned, same⟩ | ⟨calm, silent, kind, taken, split, alone⟩
  · obtain ⟨taken, split⟩ := rest_read_suffix m new.dropLast d' ts
    refine .inl ⟨?_, same⟩
    rw [kept_round takes split.symm, if_neg warned, List.nil_append]
  · refine .inr ⟨kind, taken, ?_, ?_⟩
    · rw [kept_round takes split, if_pos calm, List.cons_append]
    · intro us
      have takes' : Takes m (openGroups goals) d.quiet t .entries new d'.quiet :=
        takes.recast .quiet (.inr silent)
      have round : read m new.dropLast d'.quiet (taken ++ us) =
          ⟨none, (read m new.dropLast d' ts).draft.quiet, us⟩ := by
        have same : read m new.dropLast d'.quiet (taken ++ us) = _ :=
          read_draft (f := .quiet) rfl (.inr (by rw [alone, calm, silent]))
        rw [same, alone]
        rfl
      rw [read_round closed takes', round, Outcome.andThen_of_none rfl]

/-- Outside of entries the next token is kept. -/
theorem exists_kept_of_plain (plain : Plain goals) (d : Draft) (t : Token) (ts : List Token) :
    ∃ us, kept m goals d (t :: ts) = t :: us := by
  induction goals generalizing d with
  | nil => exact ⟨ts, kept_nil m d (t :: ts)⟩
  | cons g goals ih =>
    have holds := holds_react m (Goal.openGroups goals) g d t
    cases h : react m (Goal.openGroups goals) g d t with
    | take new d' =>
      rw [h] at holds
      have other : g ≠ .entries := by
        rintro rfl
        cases plain.readsEntries_eq
      exact ⟨_, kept_take holds other⟩
    | pass d' =>
      rw [h] at holds
      rw [kept_pass holds]
      exact ih plain.tail d'
    | refuse f isTaken =>
      rw [h] at holds
      exact ⟨ts, kept_refuse holds⟩

/-- Where entries are read, the next token that is kept begins an entry or closes the section. -/
theorem head?_kept_entries (lenient : m.strict = false) (regular : Regular (.entries :: goals))
    (ok : (read m (.entries :: goals) d ts).fault = none) :
    ∀ u ∈ (kept m (.entries :: goals) d ts).head?,
      u.kind = .identifier ∨ u.isSymbol sectionCloser := by
  obtain rfl := regular.eq_behindEntries
  induction n : ts.length using Nat.strongRecOn generalizing d ts with
  | _ n ih =>
    cases ts with
    | nil =>
      rw [kept_end]
      exact fun u mem => nomatch mem
    | cons t ts =>
      have holds := holds_react m (openGroups behindEntries) .entries d t
      cases h : react m (openGroups behindEntries) .entries d t with
      | take new d' =>
        rw [h] at holds
        rw [read_round rfl holds] at ok
        have inner := Outcome.fault_eq_none_of_andThen ok
        rw [Outcome.andThen_of_none inner] at ok
        rcases kept_round_cases lenient rfl holds inner with ⟨same, -⟩ | ⟨kind, taken, same, -⟩
        · have shorter := (rest_read_suffix m new.dropLast d' ts).length_le
          rw [List.length_cons] at n
          rw [same]
          exact ih _ (by omega) ok rfl
        · rw [same]
          intro u mem
          obtain rfl := Option.some.inj mem
          exact .inl kind
      | pass d' =>
        rw [h] at holds
        rw [kept_pass holds]
        obtain ⟨us, eq⟩ := exists_kept_of_plain plain_behindEntries d' t ts
        rw [eq]
        intro u mem
        obtain rfl := Option.some.inj mem
        cases holds with
        | entries closes => exact .inr closes
      | refuse f isTaken =>
        rw [h] at holds
        rw [fault_read_of_refuses holds] at ok
        cases ok

/-- **Leaving out what is passed over** changes nothing but that there are no warnings. -/
theorem read_kept (lenient : m.strict = false) (regular : Regular goals)
    (ok : (read m goals d ts).fault = none) :
    read m goals d.quiet (kept m goals d ts) =
      { read m goals d ts with draft := (read m goals d ts).draft.quiet } := by
  induction goals, d, ts using marked.induct m with
  | case1 goals d t ts new d' o h ih =>
    have takes : Takes m (openGroups goals) d t .entries new d' := holds_of_react_eq h
    obtain rfl := regular.eq_behindEntries
    rw [read_round rfl takes] at ok ⊢
    have inner := Outcome.fault_eq_none_of_andThen ok
    rw [Outcome.andThen_of_none inner] at ok ⊢
    have onward := ih regular ok
    rcases kept_round_cases lenient rfl takes inner with ⟨same, quiet⟩ | ⟨-, taken, same, round⟩
    · rw [same, ← quiet]
      exact onward
    · rw [same]
      exact (round _).trans onward
  | case2 g goals d t ts new d' h other ih =>
    have takes : Takes m (openGroups goals) d t g new d' := holds_of_react_eq h
    obtain ⟨regular', calm⟩ := takes.regular regular other
    rw [read_take takes] at ok ⊢
    rw [kept_take takes other]
    exact (read_take (takes.recast .quiet (.inr calm)) _).trans (ih regular' ok)
  | case3 g goals d t ts d' h ih =>
    have passes : Passes m d t g d' := holds_of_react_eq h
    rw [read_pass passes] at ok ⊢
    rw [kept_pass passes]
    rcases regular.tail with plain | ⟨rfl, rfl⟩
    · have calm := passes.warnings_eq_of_regular regular
      obtain ⟨us, eq⟩ := exists_kept_of_plain plain d' t ts
      have onward := ih (.inl plain) ok
      rw [eq] at onward ⊢
      exact (read_pass (passes.recast .quiet (.inr calm)) us).trans onward
    · -- What follows in place of the opening brace is no brace either.
      have regular' : Regular (.entries :: behindEntries) := .inr (.inl rfl)
      have other : ∀ u ∈ (kept m (.entries :: behindEntries) d' (t :: ts)).head?,
          u.isSymbol sectionOpener = false := by
        intro u mem
        rcases head?_kept_entries lenient regular' ok u mem with kind | closes
        · exact Token.isSymbol_eq_false_of_kind_eq kind (by decide)
        · rw [Token.isSymbol_eq_of_isSymbol closes]
          rfl
      cases passes
      exact (read_separator_of_lenient lenient other).trans (ih regular' ok)
  | case4 g goals d t ts f isTaken h =>
    have refuses : Refuses m (openGroups goals) t g f isTaken := holds_of_react_eq h
    rw [fault_read_of_refuses refuses] at ok
    cases ok
  | case5 goals d ts other =>
    cases ts with
    | nil =>
      rw [kept_end]
      exact read_draft (f := .quiet) rfl (.inr (warnings_read_end m goals d))
    | cons t ts =>
      cases goals with
      | nil => rw [kept_nil, read_nil, read_nil]
      | cons g goals => exact absurd rfl (other g goals t ts rfl)

/-- Where there is no warning, nothing is passed over. -/
theorem skipped_eq_nil (regular : Regular goals) (ok : (read m goals d ts).fault = none)
    (calm : (read m goals d ts).draft.warnings = d.warnings) : skipped m goals d ts = [] := by
  rw [skipped]
  fun_induction marked m goals d ts with
  | case1 goals d t ts new d' o h ih =>
    have takes : Takes m (openGroups goals) d t .entries new d' := holds_of_react_eq h
    obtain rfl := regular.eq_behindEntries
    rw [read_round rfl takes] at ok calm
    have inner := Outcome.fault_eq_none_of_andThen ok
    rw [Outcome.andThen_of_none inner] at ok calm
    have round : o.draft.warnings = d.warnings := by
      have first := (takes.growsTo.trans (growsTo_read m new.dropLast d' ts)).warnings
      have onward := (growsTo_read m (.entries :: behindEntries) o.draft o.rest).warnings
      rw [calm] at onward
      exact onward.eq_of_length_le first.length_le
    rw [List.filter_append, List.map_append, ih regular ok (calm.trans round.symm), round,
      filter_mark (fun w => w)]
    simp
  | case2 g goals d t ts new d' h other ih =>
    have takes : Takes m (openGroups goals) d t g new d' := holds_of_react_eq h
    obtain ⟨regular', silent⟩ := takes.regular regular other
    rw [read_take takes] at ok calm
    exact ih regular' ok (calm.trans silent.symm)
  | case3 g goals d t ts d' h ih =>
    have passes : Passes m d t g d' := holds_of_react_eq h
    have silent := passes.warnings_eq_of_regular regular
    rw [read_pass passes] at ok calm
    refine ih ?_ ok (calm.trans silent.symm)
    rcases regular.tail with plain | ⟨-, rfl⟩
    · exact .inl plain
    · exact .inr (.inl rfl)
  | case4 => simp
  | case5 => simp

end Kept

/-! ### Parses -/

namespace Parser

/-- The tokens ahead, each with whether a parse passes over it. -/
def markedTokens (p : Parser) (counter : Nat) : List (Token × Bool) :=
  marked p.mode [.sections] (.resume p.children [] counter) p.stream.ahead

/-- The tokens ahead that a parse passes over. -/
def skippedTokens (p : Parser) (counter : Nat) : List Token :=
  ((p.markedTokens counter).filter (·.2)).map (·.1)

/-- The tokens ahead without those that a parse passes over. -/
def keptTokens (p : Parser) (counter : Nat) : List Token :=
  ((p.markedTokens counter).filter (!·.2)).map (·.1)

/-- **A parse that loses nothing but what it warns of**: without the tokens that it passes over the
tree is the same and there are no warnings, and the tree has all those other tokens that a tree
keeps, in their order. -/
structure Conserves (s : Settings) (source : String) (ts : List Token) (c : Nat) (tree : Tree) :
    Prop where
  tokens_marked : ((ofTokens s source ts).markedTokens c).map Prod.fst = ts
  result_kept :
    ((ofTokens s source ((ofTokens s source ts).keptTokens c)).parse c).result = .ok tree
  counter_kept : ((ofTokens s source ((ofTokens s source ts).keptTokens c)).parse c).counter =
    ((ofTokens s source ts).parse c).counter
  warnings_kept :
    ((ofTokens s source ((ofTokens s source ts).keptTokens c)).parse c).warnings = []
  treeTokens_kept : treeTokens ((ofTokens s source ts).keptTokens c) = tree.spelling
  skipped_eq_nil :
    ((ofTokens s source ts).parse c).warnings = [] → (ofTokens s source ts).skippedTokens c = []

/-- A parse that warns of nothing has its tokens in the tree, as far as the tree keeps them. -/
theorem treeTokens_eq_spelling {s : Settings} {source : String} {ts : List Token} {c : Nat}
    {tree : Tree} (parsed : ((ofTokens s source ts).parse c).result = .ok tree)
    (calm : ((ofTokens s source ts).parse c).warnings = []) : treeTokens ts = tree.spelling := by
  have ok : ((ofTokens s source ts).reading c).fault = none :=
    isOk_result_parse_iff.1 (by rw [parsed]; rfl)
  rw [warnings_parse] at calm
  have conserved : Tree.spellingAll ((ofTokens s source ts).reading c).draft.children = _ :=
    spelling_read rfl rfl ok calm
  rw [result_parse, ok] at parsed
  rw [← Except.ok.inj parsed, Tree.spelling_root, conserved]
  rfl

/-- **Lenient parsing loses, repeats and reorders nothing** but what it warns of. -/
theorem lenient_parse_conserves {s : Settings} {source : String} {ts : List Token} {c : Nat}
    {tree : Tree} (parsed : ((ofTokens s.lenient source ts).parse c).result = .ok tree) :
    Conserves s.lenient source ts c tree := by
  have ok : ((ofTokens s.lenient source ts).reading c).fault = none :=
    isOk_result_parse_iff.1 (by rw [parsed]; rfl)
  have regular : Goal.Regular [.sections] := .inl (.inr (.inl rfl))
  have same : (ofTokens s.lenient source ((ofTokens s.lenient source ts).keptTokens c)).reading c =
      { (ofTokens s.lenient source ts).reading c with
        draft := ((ofTokens s.lenient source ts).reading c).draft.quiet } :=
    read_kept rfl regular ok
  have result_kept :
      ((ofTokens s.lenient source ((ofTokens s.lenient source ts).keptTokens c)).parse c).result =
        .ok tree := by
    rw [result_parse, same, ← parsed, result_parse]
    rfl
  have warnings_kept :
      ((ofTokens s.lenient source ((ofTokens s.lenient source ts).keptTokens c)).parse c).warnings =
        [] := by
    rw [warnings_parse, same]
    exact Draft.warnings_quiet _
  refine ⟨map_fst_marked _ _ _ ts, result_kept, ?_, warnings_kept,
    treeTokens_eq_spelling result_kept warnings_kept, ?_⟩
  · rw [counter_parse, counter_parse, same]
    rfl
  · intro calm
    rw [warnings_parse] at calm
    exact skipped_eq_nil regular ok calm

/-- The tokens of `tokens {"x" a: "y" b: c} grammar g`, where two entries are malformed. -/
def malformedTokens : List Token :=
  [⟨.keyword, "tokens", none⟩, .ofSymbol "\x7b", ⟨.literal, "x", none⟩, ⟨.identifier, "a", none⟩,
    .ofSymbol ":", ⟨.literal, "y", none⟩, ⟨.identifier, "b", none⟩, .ofSymbol ":",
    ⟨.identifier, "c", none⟩, .ofSymbol "\x7d", ⟨.keyword, "grammar", none⟩,
    ⟨.identifier, "g", none⟩]

theorem conserves_malformedTokens :
    Conserves (Settings.lenient {}) "" malformedTokens 0
      (.node .root [.leaf (.token "a" "y"), .leaf (.grammar "g")]) := by
  have parsed : ((ofTokens (Settings.lenient {}) "" malformedTokens).parse 0).result =
      .ok (.node .root [.leaf (.token "a" "y"), .leaf (.grammar "g")]) := rfl
  exact lenient_parse_conserves parsed

end Parser

end GrammarNotation
