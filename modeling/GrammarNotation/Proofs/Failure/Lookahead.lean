import GrammarNotation.Proofs.Lenient.Refinement

/-!
# One token of lookahead

A reader comes to a fault with the tokens that it has taken and the one that it refuses. What
stands behind that token was not looked at, so that the fault, and all that was built up to it,
are the same in front of any other remainder.

## Main statements

- `exists_refused_of_read` — a fault is found at a token, whatever stands behind it
- `read_eq_of_lookahead` — so the reading is the same on tokens that agree up to that token
- `Parser.parse_eq_of_lookahead` — the same for a parser and one token more than it has taken
-/

namespace GrammarNotation

variable {m : Mode} {goals : List Goal} {d : Draft} {ts : List Token} {f : Fault}

/-- **A fault is found at a token**, unless the tokens came to their end: behind the tokens taken
stands the one that the fault is about, and the reading is the same whatever stands behind it. -/
theorem exists_refused_of_read (fault : (read m goals d ts).fault = some f)
    (notEnd : f.kind ≠ .endOfInput) :
    ∃ taken t us, ∃ isTaken : Bool, ts = taken ++ t :: us ∧ f.token = some t ∧
      ∀ vs, read m goals d (taken ++ t :: vs) =
        ⟨some f, (read m goals d ts).draft, if isTaken then vs else t :: vs⟩ := by
  obtain ⟨c, steps, stops⟩ := exists_stops_of_read m goals d ts
  generalize read m goals d ts = o at fault stops ⊢
  cases stops with
  | met => cases fault
  | missing missing =>
    obtain rfl := Option.some.inj fault
    exact absurd (kind_of_conclude missing) notEnd
  | @refused g goals' d' t us f' isTaken refuses =>
    obtain rfl := Option.some.inj fault
    obtain ⟨taken, eq, replay⟩ := steps.exists_taken rfl
    refine ⟨taken, t, us, isTaken, eq, refuses.token_eq, ?_⟩
    intro vs
    have again : read m goals d (taken ++ t :: vs) = _ := (replay vs).outcome_eq
    have stops : Stops m ⟨g :: goals', d', t :: vs⟩ _ := .refused refuses
    exact again.trans stops.outcome_eq

/-- A reading that comes to a fault does the same on all tokens that agree with those that it has
taken and the next one. -/
theorem read_eq_of_lookahead {ts' : List Token} (fault : (read m goals d ts).fault = some f)
    (notEnd : f.kind ≠ .endOfInput)
    (agree : ts.take (ts.length - (read m goals d ts).rest.length + 1) <+: ts') :
    (read m goals d ts').fault = some f ∧
      (read m goals d ts').draft = (read m goals d ts).draft ∧
      ts'.length - (read m goals d ts').rest.length =
        ts.length - (read m goals d ts).rest.length := by
  obtain ⟨taken, t, us, isTaken, rfl, -, replay⟩ := exists_refused_of_read fault notEnd
  have count : ∀ vs, (taken ++ t :: vs).length -
      (read m goals d (taken ++ t :: vs)).rest.length = taken.length + isTaken.toNat := by
    intro vs
    rw [replay vs]
    cases isTaken with
    | true => simp only [List.length_append, List.length_cons, if_true, Bool.toNat_true]; omega
    | false => simp
  have front : taken ++ [t] <+: ts' := by
    have long : (taken ++ [t]).length ≤ taken.length + isTaken.toNat + 1 := by simp
    have whole : taken ++ [t] <+: taken ++ t :: us := ⟨us, by simp⟩
    rw [count us] at agree
    exact (List.prefix_take_iff.2 ⟨whole, long⟩).trans agree
  obtain ⟨vs, rfl⟩ := front
  rw [List.append_assoc, List.singleton_append, count vs, count us, replay vs]
  exact ⟨rfl, rfl, rfl⟩

namespace Parser

/-- **One token of lookahead is all that a parser uses**: on tokens that agree with those that it
has taken up to a fault and one more, if there is one, it comes to the same fault, having taken as
many tokens, built the same tree, drawn the same numbers and warned of the same. -/
theorem parse_eq_of_lookahead {s : Settings} {source source' : String} {ts ts' : List Token}
    {c : Nat} {f : Fault} (failed : ((ofTokens s source ts).parse c).result = .error f)
    (notEnd : f.kind ≠ .endOfInput)
    (agree : ts.take (((ofTokens s source ts).parse c).parser.stream.taken + 1) <+: ts') :
    ((ofTokens s source' ts').parse c).result = .error f ∧
      ((ofTokens s source' ts').parse c).parser.stream.taken =
        ((ofTokens s source ts).parse c).parser.stream.taken ∧
      ((ofTokens s source' ts').parse c).parser.tree =
        ((ofTokens s source ts).parse c).parser.tree ∧
      ((ofTokens s source' ts').parse c).counter = ((ofTokens s source ts).parse c).counter ∧
      ((ofTokens s source' ts').parse c).warnings =
        ((ofTokens s source ts).parse c).warnings := by
  have taken : ∀ source ts, ((ofTokens s source ts).parse c).parser.stream.taken =
      ts.length - ((ofTokens s source ts).reading c).rest.length := by
    intro source ts
    rw [taken_parse]
    exact Nat.zero_add _
  rw [taken] at agree
  have fault : ((ofTokens s source ts).reading c).fault = some f :=
    result_parse_eq_error_iff.1 failed
  obtain ⟨fault', draft, count⟩ : ((ofTokens s source' ts').reading c).fault = some f ∧
      ((ofTokens s source' ts').reading c).draft = ((ofTokens s source ts).reading c).draft ∧ _ :=
    read_eq_of_lookahead fault notEnd agree
  refine ⟨result_parse_eq_error_iff.2 fault', ?_, ?_, ?_, ?_⟩
  · rw [taken, taken]
    exact count
  · rw [tree_parse, tree_parse, draft]
  · rw [counter_parse, counter_parse, draft]
  · rw [warnings_parse, warnings_parse, draft]

/-- The tokens of `tokens {;} productions {S: a | ; }` and one more, an entry being malformed and a
term missing. -/
def termlessTokens (last : Token) : List Token :=
  [⟨.keyword, "tokens", none⟩, .ofSymbol "\x7b", .ofSymbol ";", .ofSymbol "\x7d",
    ⟨.keyword, "productions", none⟩, .ofSymbol "\x7b", ⟨.identifier, "S", none⟩, .ofSymbol ":",
    ⟨.identifier, "a", none⟩, .ofSymbol "|", .ofSymbol ";", .ofSymbol "\x7d", last]

theorem parse_eq_termlessTokens :
    ((ofTokens {} "" (termlessTokens (.ofSymbol ":"))).parse 3).result =
        .error (.unrecognized (.ofSymbol ";") Phrase.factor) ∧
      ((ofTokens {} "" (termlessTokens (.ofSymbol "|"))).parse 3).warnings =
        ((ofTokens {} "" (termlessTokens (.ofSymbol ":"))).parse 3).warnings := by
  have failed : ((ofTokens {} "" (termlessTokens (.ofSymbol ":"))).parse 3).result =
      .error (.unrecognized (.ofSymbol ";") Phrase.factor) := rfl
  have agree : (termlessTokens (.ofSymbol ":")).take
      (((ofTokens {} "" (termlessTokens (.ofSymbol ":"))).parse 3).parser.stream.taken + 1) <+:
        termlessTokens (.ofSymbol "|") := ⟨[.ofSymbol "|"], rfl⟩
  obtain ⟨-, -, -, -, warnings⟩ :
      ((ofTokens {} "" (termlessTokens (.ofSymbol "|"))).parse 3).result = _ ∧ _ ∧ _ ∧ _ ∧ _ :=
    parse_eq_of_lookahead failed (by decide) agree
  exact ⟨failed, warnings⟩

end Parser

end GrammarNotation
