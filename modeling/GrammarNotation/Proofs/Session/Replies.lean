import GrammarNotation.Proofs.Reading.Numbering
import GrammarNotation.Session.Request

/-!
# Numbers in the replies of a parser

Whatever is asked of a parser, the numbers that are drawn for it go to its tree or to the reply. A
request that fails may lose the last of them, for a section that is not complete is given up, but
it takes nothing back.

## Main definitions

- `Reply.numbers` — the numbers that a reply hands out
- `Progress.KeepsNumbers` — the numbers of a reading are in the tree or handed out

## Main statements

- `Parser.keepsNumbers_readRule` — reading what a rule describes keeps them
- `Parser.keepsNumbers_answer` — so does every request
-/

namespace GrammarNotation

open GrammarNotation.Tree

/-- The numbers that a reply hands out: those drawn from a counter, and those of nodes that are not
part of the tree. -/
def Reply.numbers : Reply → List Int
  | .counts ns => ns.map Int.ofNat
  | .tree t => if t.role = .root then [] else t.numbers
  | .trees ts => numbersAll ts
  | _ => []

/-- **What becomes of numbers**: those that a reading draws go to the tree and, behind them, among
what it hands out. A reading that fails may lose the last ones. -/
structure Progress.KeepsNumbers {α : Type} (p : Parser) (counter : Nat) (handed : α → List Int)
    (r : Progress α) : Prop where
  le : counter ≤ r.counter
  scratch : numbersAll r.parser.scratch = []
  numbers : ∃ attached, r.parser.tree.numbers = p.tree.numbers ++ attached ∧
    match r.result with
    | .ok a => attached ++ handed a = numbersBetween counter r.counter
    | .error _ => attached <+: numbersBetween counter r.counter

theorem Parser.numbers_tree (p : Parser) : p.tree.numbers = numbersAll p.children := by
  rw [tree, numbers_node]
  rfl

namespace Progress.KeepsNumbers

variable {α β : Type} {p : Parser} {counter : Nat} {handed : α → List Int} {r : Progress α}

theorem map {handed' : β → List Int} (h : r.KeepsNumbers p counter handed) (f : Parser → α → β)
    (same : ∀ a, r.result = .ok a → handed' (f r.parser a) = handed a) :
    (r.map f).KeepsNumbers p counter handed' := by
  refine ⟨h.le, h.scratch, ?_⟩
  obtain ⟨attached, tree, result⟩ := h.numbers
  refine ⟨attached, tree, ?_⟩
  cases eq : r.result with
  | error f =>
    rw [eq] at result
    simpa [Progress.map, eq, Except.map] using result
  | ok a =>
    rw [eq] at result
    simpa [Progress.map, eq, Except.map, same a eq] using result

/-- Where no number is drawn nor handed out, the tree stays as it is. -/
theorem of_unchanged (same : r.counter = counter) (scratch : numbersAll r.parser.scratch = [])
    (tree : r.parser.tree.numbers = p.tree.numbers)
    (none : ∀ a, r.result = .ok a → handed a = []) : r.KeepsNumbers p counter handed := by
  refine ⟨Nat.le_of_eq same.symm, scratch, [], by rw [tree, List.append_nil], ?_⟩
  cases eq : r.result with
  | error f => exact List.nil_prefix
  | ok a => simp [none a eq, same]

end Progress.KeepsNumbers

/-! ### Rules -/

section Rules

open Goal

variable {r : Rule} {p : Parser} {counter : Nat} {nodes : List Tree}

theorem Rule.openNumbers_goals (r : Rule) : openNumbers r.goals = [] := by
  cases r <;> rfl

theorem Rule.isWithinProduction_of_fillsScratch (fills : r.fillsScratch) :
    ∀ g ∈ r.goals, g.isWithinProduction := by
  cases r with
  | expression | term | factor => decide
  | _ => cases fills

/-- **Reading what a rule describes**: the numbers that are drawn go to the tree and to the nodes
that are left beside it. -/
theorem Parser.keepsNumbers_readRule (counter : Nat) (r : Rule) (free : numbersAll p.scratch = []) :
    (p.readRule r counter).KeepsNumbers p counter numbersAll := by
  have body : numbersAll (if r.fillsScratch then p.scratch else []) = [] := by
    split
    · exact free
    · rfl
  have eq : read p.mode r.goals (.resume p.children (if r.fillsScratch then p.scratch else [])
      counter) p.stream.ahead = _ := rfl
  obtain ⟨le, free', attached, lost, tree, numbers, closed⟩ :=
    exists_attached_read eq r.openNumbers_goals body
  refine ⟨le, ?_, attached, ?_, ?_⟩
  · simp only [readRule]
    split
    · next fills => simpa only [fills, if_true] using free'
    · exact free
  · rw [numbers_tree, numbers_tree]
    exact tree
  · simp only [readRule, resultOf]
    cases fault : (read p.mode r.goals (.resume p.children
        (if r.fillsScratch then p.scratch else []) counter) p.stream.ahead).fault with
    | none =>
      rw [closed fault, List.append_nil] at numbers
      exact numbers
    | some f =>
      rw [List.append_assoc] at numbers
      exact ⟨_, numbers⟩

theorem Parser.resultOf_eq_ok {α : Type} {o : Outcome} {value a : α}
    (h : resultOf o value = .ok a) : o.fault = none ∧ a = value := by
  cases fault : o.fault with
  | none =>
    rw [resultOf, fault] at h
    exact ⟨rfl, (Except.ok.inj h).symm⟩
  | some f =>
    rw [resultOf, fault] at h
    cases h

/-- The reply to a rule hands out the numbers of the nodes that are left beside the tree. -/
theorem Rule.numbers_reply (q : Parser) (ok : (p.readRule r counter).result = .ok nodes) :
    (r.reply q nodes).numbers = numbersAll nodes := by
  obtain ⟨complete, pending⟩ := Parser.resultOf_eq_ok ok
  have noneLeft : r.fillsScratch → nodes = [] := by
    intro fills
    exact pending.trans
      (read_of_isWithinProduction _ (isWithinProduction_of_fillsScratch fills) _ _).2
  cases r with
  | tokenSection | productionSection => rfl
  | description =>
    have none : nodes = [] := pending.trans (pending_read_sections rfl complete)
    rw [none]
    rfl
  | grammarSection =>
    obtain ⟨name, eq⟩ := exists_pending_read_grammarName rfl complete
    have leaf : nodes = [.leaf (.grammar name)] := pending.trans eq
    rw [leaf, numbersAll_leaf]
    rfl
  | production =>
    obtain ⟨number, body, eq⟩ := exists_pending_read_production rfl complete
    have node : nodes = [.node (.production number) body] := pending.trans eq
    rw [node, numbersAll_singleton]
    rfl
  | expression | term | factor =>
    rw [noneLeft rfl]
    rfl

end Rules

/-! ### Requests -/

namespace Parser

variable {p : Parser} {counter : Nat}

theorem keepsNumbers_parse (free : numbersAll p.scratch = []) :
    (p.parse counter).KeepsNumbers p counter fun t => (Reply.tree t).numbers := by
  have kept : ((p.readRule .description counter).map fun p _ => p.tree).KeepsNumbers p counter
      fun t => (Reply.tree t).numbers := by
    refine (keepsNumbers_readRule counter .description free).map _ ?_
    intro nodes ok
    rw [← Rule.numbers_reply p ok]
    rfl
  exact ⟨kept.le, kept.scratch, kept.numbers⟩

theorem keepsNumbers_readSeparator (s : String) (free : numbersAll p.scratch = []) :
    (p.readSeparator s counter).KeepsNumbers p counter fun b => (Reply.flag b).numbers := by
  have eq : read p.mode [.separator s] (.resume p.children [] counter) p.stream.ahead = _ := rfl
  have within : ∀ g ∈ [Goal.separator s], g.isWithinProduction := by simp [Goal.isWithinProduction]
  obtain ⟨-, -, attached, lost, tree, numbers, -⟩ := exists_attached_read eq rfl numbersAll_nil
  rw [(read_of_isWithinProduction _ within _ _).1, Draft.resume, numbersBetween_self] at numbers
  refine .of_unchanged rfl free ?_ fun _ _ => rfl
  have none : attached = [] := by simp_all
  rw [none, List.append_nil] at tree
  rw [numbers_tree, numbers_tree]
  exact tree

theorem keepsNumbers_readToken (phrase : String) (free : numbersAll p.scratch = []) :
    (p.readToken phrase counter).KeepsNumbers p counter fun t =>
      (Reply.token (some t)).numbers := by
  rw [readToken]
  split
  · exact .of_unchanged rfl free rfl fun _ _ => rfl
  · exact .of_unchanged rfl free rfl fun _ _ => rfl

/-- **Whatever is asked of a parser**, the numbers that are drawn go to its tree or to the reply,
unless the request fails. -/
theorem keepsNumbers_answer (counter : Nat) (request : Request)
    (free : numbersAll p.scratch = []) :
    (p.answer counter request).KeepsNumbers p counter Reply.numbers := by
  cases request with
  | parse =>
    exact (keepsNumbers_parse free).map (fun _ => Reply.tree) fun _ _ => rfl
  | rule r => exact (keepsNumbers_readRule counter r free).map _ fun _ ok => Rule.numbers_reply _ ok
  | nextToken phrase =>
    exact (keepsNumbers_readToken phrase free).map (fun _ t => Reply.token (some t)) fun _ _ => rfl
  | separator s =>
    exact (keepsNumbers_readSeparator s free).map (fun _ => Reply.flag) fun _ _ => rfl
  | _ =>
    refine .of_unchanged rfl free rfl ?_
    rintro _ ⟨⟩
    rfl

end Parser

end GrammarNotation
