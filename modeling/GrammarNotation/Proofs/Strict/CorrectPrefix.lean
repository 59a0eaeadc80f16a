import GrammarNotation.Proofs.Strict.Acceptance

/-!
# Where a strict parser finds a fault

A strict parser goes on as long as the tokens that it has taken can be completed to a sentence. So
the token that it reports is the first one at which the description can no longer be completed,
and it reports the end of the tokens just if they want more of them.

## Main definitions

- `Completable` — the tokens are the first ones of some sentence

## Main statements

- `completable_of_steps` — the tokens taken by a strict reader can be completed
- `not_completable_of_refuses` — with a token that is refused they cannot
- `Parser.strict_parse_fault` — the two together, for a parser
-/

namespace GrammarNotation

/-- The tokens are the first ones of some sentence. -/
def Completable (ts : List Token) : Prop :=
  ∃ us, IsSentence (ts ++ us)

/-! ### Strict readers -/

section Strict

variable {m : Mode} {d : Draft} {ts taken : List Token} {c : Configuration}

theorem completable_of_steps (steps : ReadingSteps m ⟨[.sections], d, ts⟩ c) (strict : m.strict)
    (plain : ∀ t ∈ ts, t.kind ≠ .comment) (eq : ts = taken ++ c.rest) : Completable taken := by
  obtain ⟨us, spelled⟩ := Goal.exists_allSpelled c.goals
  exact ⟨us, isSentence_of_steps steps strict plain eq spelled⟩

/-- With a token that is refused for what it is, the tokens that were taken cannot be completed:
whatever stands behind it, the reader comes to the same refusal, but it would read a sentence. -/
theorem not_completable_of_refuses {t : Token} {us : List Token} {g : Goal} {goals : List Goal}
    {d' : Draft} {f : Fault} {isTaken : Bool}
    (steps : ReadingSteps m ⟨[.sections], d, ts⟩ ⟨g :: goals, d', t :: us⟩)
    (refuses : Refuses m (Goal.openGroups goals) t g f isTaken) (shallow : f.kind ≠ .nesting)
    (eq : ts = taken ++ t :: us) : ¬ Completable (taken ++ [t]) := by
  rintro ⟨vs, D, sentence⟩
  obtain ⟨taken', eq', replay⟩ := steps.exists_taken rfl
  obtain rfl : taken = taken' := List.append_cancel_right (eq.symm.trans eq')
  have again : read m [.sections] d (taken ++ t :: vs) = _ := (replay vs).outcome_eq
  have stops : read m (g :: goals) d' (t :: vs) = _ := Stops.outcome_eq (.refused refuses)
  have fault : (read m [.sections] d (taken ++ t :: vs)).fault = some f := by
    rw [again]
    exact congrArg Outcome.fault stops
  rw [List.append_assoc, List.singleton_append] at sentence
  exact not_isSentence_of_fault fault shallow ⟨D, sentence⟩

end Strict

namespace Parser

/-- **A strict parser reports the first token at which the description can no longer be
completed**, and the end of the tokens if they are the beginning of a sentence but not a whole
one. -/
theorem strict_parse_fault (s : Settings) (source : String) (ts : List Token) (c : Nat)
    (strict : s.mode.strict) (plain : ∀ t ∈ ts, t.kind ≠ .comment) {f : Fault}
    (failed : ((ofTokens s source ts).parse c).result = .error f) (shallow : f.kind ≠ .nesting) :
    (f.kind = .endOfInput → ¬ IsSentence ts ∧ ∃ us, us ≠ [] ∧ IsSentence (ts ++ us)) ∧
      (f.kind ≠ .endOfInput → ∃ e, ∃ h : e < ts.length, f.token = some ts[e] ∧
        Completable (ts.take e) ∧ ¬ Completable (ts.take (e + 1))) := by
  have fault : (read s.mode [.sections] (.resume [] [] c) ts).fault = some f :=
    result_parse_eq_error_iff.1 failed
  have rejected : ¬ IsSentence ts := not_isSentence_of_fault fault shallow
  obtain ⟨c', steps, stops⟩ := exists_stops_of_read s.mode [.sections] (.resume [] [] c) ts
  generalize read s.mode [.sections] (.resume [] [] c) ts = o at fault stops
  cases stops with
  | met => cases fault
  | @refused g goals d t us f' isTaken refuses =>
    obtain rfl := Option.some.inj fault
    obtain ⟨taken, rfl, -⟩ : ∃ taken, ts = taken ++ t :: us ∧ _ := steps.exists_taken rfl
    refine ⟨fun kind => absurd kind refuses.kind_ne_endOfInput, ?_⟩
    intro _
    -- The token is the one behind those taken, also if the fault leaves it to the next reading.
    refine ⟨taken.length, by simp, ?_, ?_, ?_⟩
    · simp [refuses.token_eq]
    · have front : (taken ++ t :: us).take taken.length = taken := by simp
      rw [front]
      exact completable_of_steps steps strict plain rfl
    · have front : (taken ++ t :: us).take (taken.length + 1) = taken ++ [t] := by
        rw [List.take_length_add_append]
        rfl
      rw [front]
      exact not_completable_of_refuses steps refuses shallow rfl
  | @missing g goals d f' missing =>
    obtain rfl := Option.some.inj fault
    -- All tokens were taken. What completes them is not empty, for they are no sentence yet.
    refine ⟨fun _ => ⟨rejected, ?_⟩, fun kind => absurd (kind_of_conclude missing) kind⟩
    obtain ⟨us, sentence⟩ := completable_of_steps steps strict plain (List.append_nil ts).symm
    refine ⟨us, ?_, sentence⟩
    rintro rfl
    exact rejected (List.append_nil ts ▸ sentence)

/-- The tokens of `productions {S: (a]`, in which a bracket is closed by one of another kind. -/
def mismatchedTokens : List Token :=
  [⟨.keyword, "productions", none⟩, .ofSymbol "\x7b", ⟨.identifier, "S", none⟩, .ofSymbol ":",
    .ofSymbol "(", ⟨.identifier, "a", none⟩, .ofSymbol "]"]

theorem strict_parse_fault_mismatchedTokens :
    ∃ e, ∃ h : e < mismatchedTokens.length, some (Token.ofSymbol "]") = some mismatchedTokens[e] ∧
      Completable (mismatchedTokens.take e) ∧ ¬ Completable (mismatchedTokens.take (e + 1)) := by
  have failed : ((ofTokens { mode := { strict := true } } "" mismatchedTokens).parse 0).result =
      .error (.wrongToken (.ofSymbol "]") ")") := rfl
  exact (strict_parse_fault { mode := { strict := true } } "" mismatchedTokens 0 rfl (by decide)
    failed (by decide)).2 (by decide)

end Parser

end GrammarNotation
