import GrammarNotation.Description.Expression

/-!
# Flat forms are uniquely readable

The flat form of an expression is a list of roles without any nesting of its own. Its brackets and
bars are enough to find the expression again: whatever stands behind a factor, the factor in front
is the only one that can be read there, and a term or an expression goes on as long as it can.

## Main definitions

- `EndsTerm`, `EndsExpression` — a list of roles with which no term, no expression goes on
- `matchesBrackets`, `leavesNoGap` — the two checks that a flat form passes

## Main statements

- `Factor.eq_of_roles_append_eq`, `Term.eq_of_roles_append_eq`,
  `Expression.eq_of_roles_append_eq` — what stands in front can be read in one way only
- `Expression.roles_injective` — a flat form determines its expression
- `Expression.matchesBrackets_roles` — its brackets match and are properly nested
- `Expression.leavesNoGap_roles` — no term is missing in it
-/

namespace GrammarNotation

/-- Tells whether a factor may start with the role. -/
def Role.beginsFactor : Role → Bool
  | .nonterminal _ | .terminal _ | .action _ | .mark (.opening _) => true
  | _ => false

/-- No term goes on with the roles. -/
def EndsTerm (rs : List Role) : Prop :=
  ∀ r ∈ rs.head?, r.beginsFactor = false

/-- No expression goes on with the roles. -/
structure EndsExpression (rs : List Role) : Prop where
  endsTerm : EndsTerm rs
  noBar : rs.head? ≠ some (.mark .bar)

theorem endsTerm_bar (rs : List Role) : EndsTerm (.mark .bar :: rs) := by
  simp [EndsTerm, Role.beginsFactor]

theorem endsExpression_closing (b : Bracket) (rs : List Role) :
    EndsExpression (.mark (.closing b) :: rs) :=
  ⟨by simp [EndsTerm, Role.beginsFactor], by simp⟩

theorem endsExpression_nil : EndsExpression [] :=
  ⟨by simp [EndsTerm], by simp⟩

/-! ### Where factors and terms start -/

theorem Factor.roles_eq_cons (f : Factor) :
    ∃ r rs, f.roles = r :: rs ∧ r.beginsFactor := by
  cases f with
  | nonterminal name => exact ⟨_, _, rfl, rfl⟩
  | terminal text => exact ⟨_, _, rfl, rfl⟩
  | action code => exact ⟨_, _, rfl, rfl⟩
  | enclosed b e => exact ⟨_, _, rfl, rfl⟩

theorem Term.roles_eq_cons (t : Term) :
    ∃ r rs, t.roles = r :: rs ∧ r.beginsFactor := by
  cases t with
  | one f => exact f.roles_eq_cons
  | more f t =>
    obtain ⟨r, rs, eq, begins⟩ := f.roles_eq_cons
    exact ⟨r, rs ++ t.roles, by rw [Term.roles, eq, List.cons_append], begins⟩

theorem EndsTerm.ne_roles_append {rs : List Role} (h : EndsTerm rs) (t : Term)
    (after : List Role) : rs ≠ t.roles ++ after := by
  rintro rfl
  obtain ⟨r, rs, eq, begins⟩ := t.roles_eq_cons
  have not_begins : r.beginsFactor = false := h r (by simp [eq])
  simp [begins] at not_begins

theorem EndsExpression.ne_bar_cons {rs : List Role} (h : EndsExpression rs)
    (after : List Role) : rs ≠ .mark .bar :: after := by
  rintro rfl
  exact h.noBar rfl

/-! ### Reading a flat form -/

mutual

theorem Factor.eq_of_roles_append_eq (f f' : Factor) (rs rs' : List Role)
    (h : f.roles ++ rs = f'.roles ++ rs') : f = f' ∧ rs = rs' := by
  cases f <;> cases f' <;> simp only [Factor.roles, List.cons_append, List.cons.injEq,
    List.nil_append, reduceCtorEq, false_and, Role.mark.injEq, Mark.opening.injEq,
    Role.nonterminal.injEq, Role.terminal.injEq, Role.action.injEq] at h
  case nonterminal.nonterminal => exact ⟨by rw [h.1], h.2⟩
  case terminal.terminal => exact ⟨by rw [h.1], h.2⟩
  case action.action => exact ⟨by rw [h.1], h.2⟩
  case enclosed.enclosed b e b' e' =>
    -- No expression goes on with a closing bracket, so the two bodies end at the same place.
    obtain ⟨rfl, inner⟩ := h
    rw [List.append_assoc, List.append_assoc] at inner
    obtain ⟨rfl, closing⟩ := Expression.eq_of_roles_append_eq e e' _ _ inner
      (endsExpression_closing b rs) (endsExpression_closing b rs')
    exact ⟨rfl, (List.cons.inj closing).2⟩

/-- A term in front of roles with which it does not go on can be read in one way only. -/
theorem Term.eq_of_roles_append_eq (t t' : Term) (rs rs' : List Role)
    (h : t.roles ++ rs = t'.roles ++ rs') (ends : EndsTerm rs) (ends' : EndsTerm rs') :
    t = t' ∧ rs = rs' := by
  cases t with
  | one f =>
    cases t' with
    | one f' =>
      obtain ⟨rfl, others⟩ := Factor.eq_of_roles_append_eq f f' rs rs' h
      exact ⟨rfl, others⟩
    | more f' t' =>
      -- One reading stops behind the factor, where the other one goes on with a term.
      rw [Term.roles, Term.roles, List.append_assoc] at h
      obtain ⟨-, others⟩ := Factor.eq_of_roles_append_eq f f' _ _ h
      exact absurd others (ends.ne_roles_append t' rs')
  | more f t =>
    cases t' with
    | one f' =>
      rw [Term.roles, Term.roles, List.append_assoc] at h
      obtain ⟨-, others⟩ := Factor.eq_of_roles_append_eq f f' _ _ h
      exact absurd others.symm (ends'.ne_roles_append t rs)
    | more f' t' =>
      rw [Term.roles, Term.roles, List.append_assoc, List.append_assoc] at h
      obtain ⟨rfl, others⟩ := Factor.eq_of_roles_append_eq f f' _ _ h
      obtain ⟨rfl, after⟩ := Term.eq_of_roles_append_eq t t' rs rs' others ends ends'
      exact ⟨rfl, after⟩

/-- An expression in front of roles with which it does not go on can be read in one way only. -/
theorem Expression.eq_of_roles_append_eq (e e' : Expression) (rs rs' : List Role)
    (h : e.roles ++ rs = e'.roles ++ rs') (ends : EndsExpression rs)
    (ends' : EndsExpression rs') : e = e' ∧ rs = rs' := by
  cases e with
  | one t =>
    cases e' with
    | one t' =>
      obtain ⟨rfl, others⟩ :=
        Term.eq_of_roles_append_eq t t' rs rs' h ends.endsTerm ends'.endsTerm
      exact ⟨rfl, others⟩
    | more t' e' =>
      -- One reading stops behind the term, where the other one goes on with a bar.
      rw [Expression.roles, Expression.roles, List.append_assoc] at h
      obtain ⟨-, others⟩ :=
        Term.eq_of_roles_append_eq t t' _ _ h ends.endsTerm (endsTerm_bar _)
      exact absurd others (ends.ne_bar_cons _)
  | more t e =>
    cases e' with
    | one t' =>
      rw [Expression.roles, Expression.roles, List.append_assoc] at h
      obtain ⟨-, others⟩ :=
        Term.eq_of_roles_append_eq t t' _ _ h (endsTerm_bar _) ends'.endsTerm
      exact absurd others.symm (ends'.ne_bar_cons _)
    | more t' e' =>
      rw [Expression.roles, Expression.roles, List.append_assoc, List.append_assoc] at h
      obtain ⟨rfl, others⟩ :=
        Term.eq_of_roles_append_eq t t' _ _ h (endsTerm_bar _) (endsTerm_bar _)
      obtain ⟨rfl, after⟩ := Expression.eq_of_roles_append_eq e e' rs rs'
        (List.cons.inj others).2 ends ends'
      exact ⟨rfl, after⟩

end

/-- **A flat form determines its expression.** -/
theorem Expression.roles_injective : Function.Injective Expression.roles := by
  intro e e' h
  have h' : e.roles ++ [] = e'.roles ++ [] := congrArg (· ++ []) h
  exact (e.eq_of_roles_append_eq e' [] [] h' endsExpression_nil endsExpression_nil).1

/-! ### Brackets -/

/-- Tells whether every closing bracket closes the innermost bracket that is open, `opened` being
the open ones from the inside out, and whether none is open in the end. -/
def matchesBrackets : (opened : List Bracket) → List Role → Bool
  | opened, [] => opened.isEmpty
  | opened, .mark (.opening b) :: rs => matchesBrackets (b :: opened) rs
  | [], .mark (.closing _) :: _ => false
  | b :: opened, .mark (.closing b') :: rs => b == b' && matchesBrackets opened rs
  | opened, _ :: rs => matchesBrackets opened rs

mutual

theorem Factor.matchesBrackets_append (f : Factor) (opened : List Bracket) (rs : List Role) :
    matchesBrackets opened (f.roles ++ rs) = matchesBrackets opened rs := by
  cases f with
  | nonterminal name => simp [Factor.roles, matchesBrackets]
  | terminal text => simp [Factor.roles, matchesBrackets]
  | action code => simp [Factor.roles, matchesBrackets]
  | enclosed b e =>
    rw [Factor.roles, List.cons_append, List.append_assoc, matchesBrackets,
      Expression.matchesBrackets_append e]
    simp [matchesBrackets]

theorem Term.matchesBrackets_append (t : Term) (opened : List Bracket) (rs : List Role) :
    matchesBrackets opened (t.roles ++ rs) = matchesBrackets opened rs := by
  cases t with
  | one f => exact Factor.matchesBrackets_append f opened rs
  | more f t =>
    rw [Term.roles, List.append_assoc, Factor.matchesBrackets_append f,
      Term.matchesBrackets_append t]

theorem Expression.matchesBrackets_append (e : Expression) (opened : List Bracket)
    (rs : List Role) : matchesBrackets opened (e.roles ++ rs) = matchesBrackets opened rs := by
  cases e with
  | one t => exact Term.matchesBrackets_append t opened rs
  | more t e =>
    rw [Expression.roles, List.append_assoc, Term.matchesBrackets_append t]
    simp only [List.cons_append, matchesBrackets]
    exact Expression.matchesBrackets_append e opened rs

end

theorem Expression.matchesBrackets_roles (e : Expression) : matchesBrackets [] e.roles := by
  rw [← List.append_nil e.roles, e.matchesBrackets_append]
  rfl

/-! ### Gaps -/

/-- Tells whether a factor stands behind every opening bracket and every bar, and in front of every
closing bracket, every bar and the end; `isMissing` tells whether one must come first. -/
def leavesNoGap : (isMissing : Bool) → List Role → Bool
  | isMissing, [] => !isMissing
  | isMissing, .mark .bar :: rs => !isMissing && leavesNoGap true rs
  | _, .mark (.opening _) :: rs => leavesNoGap true rs
  | isMissing, .mark (.closing _) :: rs => !isMissing && leavesNoGap false rs
  | _, _ :: rs => leavesNoGap false rs

mutual

theorem Factor.leavesNoGap_append (f : Factor) (isMissing : Bool) (rs : List Role) :
    leavesNoGap isMissing (f.roles ++ rs) = leavesNoGap false rs := by
  cases f with
  | nonterminal name => simp [Factor.roles, leavesNoGap]
  | terminal text => simp [Factor.roles, leavesNoGap]
  | action code => simp [Factor.roles, leavesNoGap]
  | enclosed b e =>
    rw [Factor.roles, List.cons_append, List.append_assoc, leavesNoGap,
      Expression.leavesNoGap_append e]
    simp [leavesNoGap]

theorem Term.leavesNoGap_append (t : Term) (isMissing : Bool) (rs : List Role) :
    leavesNoGap isMissing (t.roles ++ rs) = leavesNoGap false rs := by
  cases t with
  | one f => exact Factor.leavesNoGap_append f isMissing rs
  | more f t =>
    rw [Term.roles, List.append_assoc, Factor.leavesNoGap_append f,
      Term.leavesNoGap_append t]

theorem Expression.leavesNoGap_append (e : Expression) (isMissing : Bool) (rs : List Role) :
    leavesNoGap isMissing (e.roles ++ rs) = leavesNoGap false rs := by
  cases e with
  | one t => exact Term.leavesNoGap_append t isMissing rs
  | more t e =>
    rw [Expression.roles, List.append_assoc, Term.leavesNoGap_append t]
    simp only [List.cons_append, leavesNoGap, Bool.not_false, Bool.true_and]
    exact Expression.leavesNoGap_append e true rs

end

theorem Expression.leavesNoGap_roles (e : Expression) : leavesNoGap true e.roles := by
  rw [← List.append_nil e.roles, e.leavesNoGap_append]
  rfl

/-! ### Heads -/

mutual

theorem Factor.head_notMem_roles (f : Factor) (name : String) : .head name ∉ f.roles := by
  cases f with
  | nonterminal | terminal | action => simp [Factor.roles]
  | enclosed b e => simp [Factor.roles, Expression.head_notMem_roles e name]

theorem Term.head_notMem_roles (t : Term) (name : String) : .head name ∉ t.roles := by
  cases t with
  | one f => exact Factor.head_notMem_roles f name
  | more f t =>
    simp [Term.roles, Factor.head_notMem_roles f name, Term.head_notMem_roles t name]

theorem Expression.head_notMem_roles (e : Expression) (name : String) :
    .head name ∉ e.roles := by
  cases e with
  | one t => exact Term.head_notMem_roles t name
  | more t e =>
    simp [Expression.roles, Term.head_notMem_roles t name,
      Expression.head_notMem_roles e name]

end

end GrammarNotation
