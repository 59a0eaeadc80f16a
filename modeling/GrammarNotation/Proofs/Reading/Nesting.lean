import GrammarNotation.Proofs.Reading.Numbering
import GrammarNotation.Proofs.Reading.Stages

/-!
# Groups that are open

The goals behind a token show how many groups are open, and so does the body that was built: as
many as there are opening marks without a closing one. A group is open only within a production,
and the number of this production is the last one that was drawn.

## Main definitions

- `Draft.openGroups` — the opening marks of a body, less its closing marks
- `Configuration.IsNested` — goals and body show the same groups

## Main statements

- `ReadingSteps.isNested` — they always do
- `Configuration.IsNested.exists_endProduction` — where a factor is read its production has the last
  number
-/

namespace GrammarNotation

/-- What a node adds to the number of open groups. -/
def Role.opening : Role → Int
  | .mark (.opening _) => 1
  | .mark (.closing _) => -1
  | _ => 0

/-- What the nodes of a body add to it together. -/
def Tree.openingAll : List Tree → Int
  | [] => 0
  | t :: ts => t.role.opening + openingAll ts

theorem Tree.openingAll_append (ss ts : List Tree) :
    openingAll (ss ++ ts) = openingAll ss + openingAll ts := by
  induction ss with
  | nil => exact (Int.zero_add _).symm
  | cons s ss ih => rw [List.cons_append, openingAll, openingAll, ih, Int.add_assoc]

/-- **The groups that the body leaves open**: its opening marks, less its closing marks. -/
def Draft.openGroups (d : Draft) : Int :=
  Tree.openingAll d.body

namespace Draft

theorem openGroups_eq_zero {d : Draft} (h : d.body = []) : d.openGroups = 0 := by
  rw [openGroups, h]
  rfl

theorem openGroups_attach (d : Draft) (r : Role) :
    (d.attach r).openGroups = d.openGroups + r.opening := by
  rw [openGroups, attach, Tree.openingAll_append]
  simp [openGroups, Tree.openingAll, Tree.leaf]

end Draft

/-! ### Goals within a production -/

namespace Goal

variable {g : Goal} {goals : List Goal} {body : List Tree} {number : Nat} {name : String}

theorem Staged.tail (h : Staged (g :: goals) body) : ∃ body', Staged goals body' := by
  cases g with
  | separator => exact ⟨body, h.2⟩
  | endProduction => exact ⟨[], h.2⟩
  | expression | alternatives | term | factors | factor | code | closing =>
    exact ⟨[], ((staged_of_fillsBody rfl).1 h).2 []⟩
  | _ => exact ⟨[], h.2.2⟩

/-- What fits every body stands in front of the end of a production. -/
theorem exists_endProduction_of_staged (h : ∀ body, Staged goals body) :
    ∃ number name, .endProduction number name ∈ goals := by
  -- A goal in front of it leaves others that fit every body, and outside of productions none does.
  induction goals with
  | nil =>
    have empty : [Tree.leaf .blank] = [] := h _
    cases empty
  | cons g goals ih =>
    cases g with
    | endProduction number name => exact ⟨number, name, List.mem_cons_self⟩
    | separator =>
      obtain ⟨number, name, mem⟩ := ih fun body => (h body).2
      exact ⟨number, name, List.mem_cons_of_mem _ mem⟩
    | expression | alternatives | term | factors | factor | code | closing =>
      obtain ⟨number, name, mem⟩ := ih ((staged_of_fillsBody rfl).1 (h [])).2
      exact ⟨number, name, List.mem_cons_of_mem _ mem⟩
    | _ =>
      have empty : [Tree.leaf .blank] = [] := (h _).2.1
      cases empty

/-- Where no production is open no group is. -/
theorem Staged.openGroups_eq_zero (h : Staged goals body) (none : openNumbers goals = []) :
    openGroups goals = 0 := by
  induction goals generalizing body with
  | nil => rfl
  | cons g goals ih =>
    have none' := openNumbers_eq_nil_iff.1 none
    have noneBehind : openNumbers goals = [] :=
      openNumbers_eq_nil_iff.2 (List.forall_mem_cons.1 none').2
    obtain ⟨body', behind⟩ := h.tail
    cases closing : g.isClosing with
    | false => rw [openGroups_cons, ih behind noneBehind, closing]; rfl
    | true =>
      -- Behind a group that is open its production is, too.
      have fills : g.fillsBody := by cases g <;> first | rfl | cases closing
      obtain ⟨number, name, mem⟩ :=
        exists_endProduction_of_staged ((staged_of_fillsBody fills).1 h).2
      exact absurd (openNumbers_eq_nil_iff.1 noneBehind _ mem) (Option.some_ne_none _)

/-- The production that is open is the only one. -/
theorem OneOpen.openNumbers_eq_singleton (h : OneOpen goals)
    (mem : .endProduction number name ∈ goals) : openNumbers goals = [(number : Int)] := by
  obtain ⟨front, behind, rfl⟩ := List.append_of_mem mem
  obtain ⟨-, last, before⟩ := List.pairwise_append.1 h
  have noneBefore : openNumbers front = [] := by
    rw [openNumbers_eq_nil_iff]
    intro g inFront
    exact number?_of_isWithinProduction
      (before g inFront _ List.mem_cons_self (Option.some_ne_none _))
  have noneBehind : openNumbers behind = [] := OneOpen.openNumbers_eq last rfl
  rw [openNumbers_append, openNumbers_cons, noneBefore, noneBehind]
  rfl

theorem openGroups_of_afterProduction? {after : List Goal}
    (begins : g.afterProduction? = some after) : g.isClosing = false ∧ openGroups after = 0 := by
  cases g <;> simp only [afterProduction?, Option.some.injEq, reduceCtorEq] at begins <;>
    subst begins <;> exact ⟨rfl, rfl⟩

theorem isClosing_of_afterFactor? {after : List Goal} (begins : g.afterFactor? = some after) :
    g.isClosing = false := by
  cases g <;> first | rfl | cases begins

theorem openGroups_cons_of_afterFactor? {after : List Goal} (begins : g.afterFactor? = some after)
    (goals : List Goal) : openGroups (g :: goals) = openGroups goals := by
  rw [openGroups_cons, isClosing_of_afterFactor? begins]
  rfl

theorem openGroups_le_cons (g : Goal) (goals : List Goal) :
    openGroups goals ≤ openGroups (g :: goals) := by
  rw [openGroups_cons]
  exact Nat.le_add_right _ _

end Goal

/-! ### Steps -/

section Steps

open Goal

variable {m : Mode} {depth : Nat} {g : Goal} {goals new : List Goal} {d d' : Draft} {t : Token}

/-- A token that is taken opens a group, which the reader must allow, or it opens and closes
none. -/
theorem Takes.openGroups_cases (takes : Takes m depth d t g new d')
    (staged : Staged (g :: goals) d.body) :
    g.isClosing = false ∧
      (openGroups new = 0 ∧ d'.openGroups = d.openGroups ∨
        m.allows depth ∧ openGroups new = 1 ∧ d'.openGroups = d.openGroups + 1) := by
  cases takes with
  | production begins =>
    -- The body begins anew, so that none may be open in the one before.
    obtain ⟨notClosing, none⟩ := openGroups_of_afterProduction? begins
    have empty := (staged.after_production begins).1
    refine ⟨notClosing, .inl ⟨?_, ?_⟩⟩
    · simp [openGroups_cons, isClosing, none]
    · rw [Draft.openGroups_eq_zero empty]
      rfl
  | nonterminal begins | terminal begins =>
    refine ⟨isClosing_of_afterFactor? begins, .inl ⟨openGroups_of_afterFactor? begins, ?_⟩⟩
    rw [Draft.openGroups_attach]
    exact Int.add_zero _
  | group begins opens allowed =>
    refine ⟨isClosing_of_afterFactor? begins, .inr ⟨allowed, ?_, Draft.openGroups_attach _ _⟩⟩
    simp [openGroups_cons, isClosing, openGroups_of_afterFactor? begins]
  | action begins =>
    refine ⟨isClosing_of_afterFactor? begins, .inl ⟨?_, rfl⟩⟩
    simp [openGroups_cons, isClosing, openGroups_of_afterFactor? begins]
  | bar | code => exact ⟨rfl, .inl ⟨rfl, by rw [Draft.openGroups_attach]; exact Int.add_zero _⟩⟩
  | _ => exact ⟨rfl, .inl ⟨rfl, rfl⟩⟩

/-- The mark that closes a group is attached when the goal that stands for it is met. -/
theorem openGroups_closing {b : Bracket} (h : d.openGroups = openGroups (.closing b :: goals)) :
    (d.attach (.mark (.closing b))).openGroups = openGroups goals := by
  have counted : openGroups (.closing b :: goals) = openGroups goals + 1 := openGroups_cons _ _
  rw [Draft.openGroups_attach, h, counted, Role.opening]
  push_cast
  omega

/-- **Goals and body show the same groups**, and all of them are within the production that is
open. -/
structure Configuration.IsNested (first : Nat) (c : Configuration) : Prop where
  staged : Staged c.goals c.draft.body
  numbered : c.draft.IsNumbered [] first c.goals
  openGroups_eq : c.draft.openGroups = openGroups c.goals

namespace Configuration.IsNested

variable {first : Nat} {ts : List Token}

/-- Behind the end of a production no group is open. -/
theorem openGroups_endProduction {number : Nat} {name : String}
    (h : IsNested first ⟨.endProduction number name :: goals, d, ts⟩) : openGroups goals = 0 :=
  Staged.openGroups_eq_zero h.staged.2 (OneOpen.openNumbers_eq h.numbered.oneOpen rfl)

theorem of_takes (h : IsNested first ⟨g :: goals, d, t :: ts⟩)
    (takes : Takes m depth d t g new d') : IsNested first ⟨new ++ goals, d', ts⟩ := by
  refine ⟨takes.staged h.staged, takes.isNumbered h.numbered, ?_⟩
  obtain ⟨notClosing, cases⟩ := takes.openGroups_cases h.staged
  have before : d.openGroups = openGroups (g :: goals) := h.openGroups_eq
  rw [openGroups_cons, notClosing] at before
  show d'.openGroups = openGroups (new ++ goals)
  rw [openGroups_append]
  rcases cases with ⟨none, same⟩ | ⟨-, one, more⟩
  · rw [none, same, before]
    simp
  · rw [one, more, before]
    push_cast
    simp [Int.add_comm]

theorem of_passes (h : IsNested first ⟨g :: goals, d, t :: ts⟩) (passes : Passes m d t g d') :
    IsNested first ⟨goals, d', t :: ts⟩ := by
  refine ⟨passes.staged h.staged, passes.isNumbered h.numbered, ?_⟩
  have before : d.openGroups = openGroups (g :: goals) := h.openGroups_eq
  show d'.openGroups = openGroups goals
  cases passes with
  | endProduction => rw [h.openGroups_endProduction]; rfl
  | closing => exact openGroups_closing before
  | _ => exact before

theorem of_concludes (h : IsNested first ⟨g :: goals, d, []⟩) (concludes : Concludes m d g d') :
    IsNested first ⟨goals, d', []⟩ := by
  refine ⟨concludes.staged h.staged, concludes.isNumbered h.numbered, ?_⟩
  have before : d.openGroups = openGroups (g :: goals) := h.openGroups_eq
  show d'.openGroups = openGroups goals
  cases concludes with
  | endProduction => rw [h.openGroups_endProduction]; rfl
  | closing => exact openGroups_closing before
  | _ => exact before

end Configuration.IsNested

theorem ReadingStep.isNested {first : Nat} {c c' : Configuration} (step : ReadingStep m c c')
    (h : c.IsNested first) : c'.IsNested first := by
  cases step with
  | take takes => exact h.of_takes takes
  | pass passes => exact h.of_passes passes
  | conclude done => exact h.of_concludes (concludes_of_conclude_eq done)

theorem ReadingSteps.isNested {first : Nat} {c c' : Configuration} (steps : ReadingSteps m c c')
    (h : c.IsNested first) : c'.IsNested first :=
  steps.keeps ReadingStep.isNested h

/-! ### The production around a factor -/

/-- **Where a factor is read its production is open**, and this production has the last number that
was drawn: those drawn before it are the numbers of nodes. -/
theorem Configuration.IsNested.exists_endProduction {first : Nat} {ts : List Token}
    {after : List Goal} (h : IsNested first ⟨g :: goals, d, ts⟩)
    (begins : g.afterFactor? = some after) :
    ∃ name, .endProduction d.counter name ∈ goals ∧
      Tree.numbersAll (d.children ++ d.pending) ++ [(d.counter : Int)] =
        numbersBetween first d.counter := by
  obtain ⟨number, name, mem⟩ := exists_endProduction_of_staged
    ((staged_of_fillsBody (fillsBody_of_afterFactor? begins)).1 h.staged).2
  have open_ := OneOpen.openNumbers_eq_singleton h.numbered.oneOpen (List.mem_cons_of_mem g mem)
  have numbers : Tree.numbersAll (d.children ++ d.pending) ++ openNumbers (g :: goals) =
      [] ++ numbersBetween first d.counter := h.numbered.numbers
  rw [open_, List.nil_append] at numbers
  have le : first ≤ d.counter := h.numbered.le
  -- A number was drawn, so the counter has moved on, and its last number is the one drawn last.
  obtain ⟨before, moved⟩ : ∃ before, d.counter = before + 1 ∧ first ≤ before := by
    rcases Nat.eq_or_lt_of_le le with rfl | lt
    · simp at numbers
    · exact ⟨d.counter - 1, by omega, by omega⟩
  have last : (number : Int) = d.counter := by
    rw [moved.1, numbersBetween_succ moved.2] at numbers
    have same := List.append_inj_right' numbers rfl
    rw [moved.1]
    exact List.singleton_inj.1 same
  obtain rfl : number = d.counter := Int.ofNat.inj last
  exact ⟨name, mem, numbers⟩

end Steps

end GrammarNotation
