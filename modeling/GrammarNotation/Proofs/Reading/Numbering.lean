import GrammarNotation.Proofs.Lenient.Conservation

/-!
# Numbers of productions

A number is drawn when a production begins, and it stays with the production until this is a node
of its section. So at any moment the numbers that were drawn are those of the nodes, in order, and
behind them the number of the production that is open, if there is one.

## Main definitions

- `Tree.numbers` — the numbers of the productions of a tree
- `numbersBetween` — what a counter yields between two of its values
- `Draft.IsNumbered` — all numbers that were drawn are accounted for

## Main statements

- `ReadingSteps.isNumbered` — steps keep account
- `exists_attached_read` — every number that a reading draws goes to the tree, stays beside it, or
  is lost because the reading fails
- `exists_pending_read_production` — what the reading of one production leaves beside the tree
-/

namespace GrammarNotation

/-! ### Numbers of nodes -/

/-- The number of a production. -/
def Role.number? : Role → Option Int
  | .production number => some number
  | _ => none

/-- The numbers of the productions of a tree, in the order of its nodes. -/
def Tree.numbers (t : Tree) : List Int :=
  t.preorder.filterMap (·.role.number?)

/-- The numbers of the productions of the trees of a list. -/
def Tree.numbersAll (ts : List Tree) : List Int :=
  (preorderAll ts).filterMap (·.role.number?)

namespace Tree

@[simp]
theorem numbersAll_nil : numbersAll [] = [] := rfl

@[simp]
theorem numbersAll_append (ss ts : List Tree) :
    numbersAll (ss ++ ts) = numbersAll ss ++ numbersAll ts := by
  simp [numbersAll, preorderAll_append]

theorem numbersAll_singleton (t : Tree) : numbersAll [t] = t.numbers := by
  simp [numbersAll, numbers, preorderAll]

theorem numbers_node (r : Role) (cs : List Tree) :
    (node r cs).numbers = r.number?.toList ++ numbersAll cs := by
  cases h : r.number? <;> simp [numbers, numbersAll, preorder, h]

@[simp]
theorem numbersAll_node (r : Role) (cs : List Tree) :
    numbersAll [.node r cs] = r.number?.toList ++ numbersAll cs :=
  (numbersAll_singleton _).trans (numbers_node r cs)

@[simp]
theorem numbersAll_leaf (r : Role) : numbersAll [.leaf r] = r.number?.toList := by
  rw [leaf, numbersAll_node, numbersAll_nil, List.append_nil]

end Tree

/-! ### Numbers from a counter -/

/-- The numbers that a counter yields while it goes from one value to another. -/
def numbersBetween (first last : Nat) : List Int :=
  (List.range' (first + 1) (last - first)).map Int.ofNat

section Between

variable {first middle last : Nat}

@[simp]
theorem numbersBetween_self (n : Nat) : numbersBetween n n = [] := by
  simp [numbersBetween]

@[simp]
theorem length_numbersBetween : (numbersBetween first last).length = last - first := by
  simp [numbersBetween]

theorem numbersBetween_append (h : first ≤ middle) (h' : middle ≤ last) :
    numbersBetween first middle ++ numbersBetween middle last = numbersBetween first last := by
  have start : middle + 1 = first + 1 + 1 * (middle - first) := by omega
  have length : last - first = middle - first + (last - middle) := by omega
  rw [numbersBetween, numbersBetween, numbersBetween, ← List.map_append, start, length,
    List.range'_append]

theorem numbersBetween_succ (h : first ≤ last) :
    numbersBetween first (last + 1) = numbersBetween first last ++ [((last + 1 : Nat) : Int)] := by
  have next : numbersBetween last (last + 1) = [((last + 1 : Nat) : Int)] := by
    simp [numbersBetween]
  rw [← next, numbersBetween_append h (Nat.le_succ last)]

theorem mem_numbersBetween {n : Int} : n ∈ numbersBetween first last ↔ first < n ∧ n ≤ last := by
  simp only [numbersBetween, List.mem_map, List.mem_range'_1]
  constructor
  · rintro ⟨k, bounds, rfl⟩
    simp only [Int.ofNat_eq_natCast]
    omega
  · intro bounds
    exact ⟨n.toNat, by omega, by simp only [Int.ofNat_eq_natCast]; omega⟩

theorem pairwise_numbersBetween : (numbersBetween first last).Pairwise (· < ·) := by
  have increasing : (List.range' (first + 1) (last - first)).Pairwise (· < ·) :=
    List.pairwise_lt_range' ..
  exact increasing.map Int.ofNat fun _ _ => Int.ofNat_lt.2

end Between

/-! ### The production that is open -/

namespace Goal

/-- The number of the production that a goal ends. -/
def number? : Goal → Option Int
  | .endProduction number _ => some number
  | _ => none

/-- The numbers of the productions that have begun and are not nodes yet. -/
def openNumbers (goals : List Goal) : List Int :=
  goals.filterMap number?

/-- The goals between the beginning of a production and its end. -/
def isWithinProduction : Goal → Bool
  | .separator _ | .expression | .alternatives | .term | .factors | .factor | .code
  | .closing _ => true
  | _ => false

/-- Only goals within a production stand in front of its end. -/
def OneOpen (goals : List Goal) : Prop :=
  goals.Pairwise fun g g' => g'.number? ≠ none → g.isWithinProduction

variable {g : Goal} {goals after new : List Goal}

@[simp]
theorem openNumbers_append (goals more : List Goal) :
    openNumbers (goals ++ more) = openNumbers goals ++ openNumbers more := by
  simp [openNumbers]

theorem openNumbers_cons (g : Goal) (goals : List Goal) :
    openNumbers (g :: goals) = g.number?.toList ++ openNumbers goals := by
  cases h : g.number? <;> simp [openNumbers, h]

theorem openNumbers_eq_nil_iff : openNumbers goals = [] ↔ ∀ g ∈ goals, g.number? = none := by
  simp [openNumbers]

theorem number?_of_isWithinProduction (within : g.isWithinProduction) : g.number? = none := by
  cases g with
  | endProduction => cases within
  | _ => rfl

theorem OneOpen.tail (h : OneOpen (g :: goals)) : OneOpen goals :=
  (List.pairwise_cons.1 h).2

/-- Behind a goal outside of productions no production ends. -/
theorem OneOpen.openNumbers_eq (h : OneOpen (g :: goals)) (outside : g.isWithinProduction = false) :
    openNumbers goals = [] := by
  rw [openNumbers_eq_nil_iff]
  intro g' mem
  by_cases none : g'.number? = none
  · exact none
  · have within := (List.pairwise_cons.1 h).1 g' mem none
    rw [outside] at within
    cases within

theorem isWithinProduction_of_afterFactor? (begins : g.afterFactor? = some after) :
    g.isWithinProduction ∧ ∀ g' ∈ after, g'.isWithinProduction := by
  cases g <;> simp only [afterFactor?, Option.some.injEq, reduceCtorEq] at begins <;>
    subst begins <;> simp [isWithinProduction]

theorem number?_of_afterProduction? (begins : g.afterProduction? = some after) :
    g.isWithinProduction = false ∧ g.number? = none ∧ openNumbers after = [] := by
  cases g <;> simp only [afterProduction?, Option.some.injEq, reduceCtorEq] at begins <;>
    subst begins <;> simp [isWithinProduction, number?, openNumbers]

/-- Goals within a production set only such goals. -/
theorem OneOpen.append_of_within (h : OneOpen (g :: goals))
    (within : ∀ g' ∈ new, g'.isWithinProduction) : OneOpen (new ++ goals) := by
  have inner : OneOpen new := List.pairwise_of_forall_mem_list fun g' mem _ _ _ => within g' mem
  exact List.pairwise_append.2 ⟨inner, h.tail, fun g' mem _ _ _ => within g' mem⟩

/-- In front of goals that end no production, goals may be set that end one at most. -/
theorem OneOpen.append_of_none (h : OneOpen new) (rest : OneOpen goals)
    (none : openNumbers goals = []) : OneOpen (new ++ goals) := by
  refine List.pairwise_append.2 ⟨h, rest, ?_⟩
  intro g' _ g'' mem ends
  exact absurd (openNumbers_eq_nil_iff.1 none g'' mem) ends

theorem oneOpen_of_none (none : openNumbers goals = []) : OneOpen goals :=
  List.pairwise_of_forall_mem_list fun _ _ g' mem ends =>
    absurd (openNumbers_eq_nil_iff.1 none g' mem) ends

end Goal

/-! ### Steps -/

/-- **All numbers are accounted for**: those known before, and those that were drawn since, are the
numbers of the nodes and of the production that is open. -/
structure Draft.IsNumbered (known : List Int) (first : Nat) (goals : List Goal) (d : Draft) :
    Prop where
  le : first ≤ d.counter
  oneOpen : Goal.OneOpen goals
  body : Tree.numbersAll d.body = []
  numbers : Tree.numbersAll (d.children ++ d.pending) ++ Goal.openNumbers goals =
    known ++ numbersBetween first d.counter

section Steps

open Goal GrammarNotation.Tree

variable {m : Mode} {depth : Nat} {g : Goal} {goals new after : List Goal} {d d' : Draft}
  {t : Token} {known : List Int} {first : Nat}

/-- Goals within a production touch its body alone. -/
theorem Takes.isWithinProduction (takes : Takes m depth d t g new d')
    (within : g.isWithinProduction) :
    (∀ g' ∈ new, g'.isWithinProduction) ∧ d'.counter = d.counter ∧ d'.pending = d.pending := by
  cases takes with
  | production begins => simp [(number?_of_afterProduction? begins).1] at within
  | nonterminal begins | terminal begins | group begins | action begins =>
    have inner := (isWithinProduction_of_afterFactor? begins).2
    simpa [Goal.isWithinProduction, Draft.attach] using inner
  | separator | bar | code => simp [Goal.isWithinProduction, Draft.attach]
  | _ => cases within

theorem Passes.isWithinProduction (passes : Passes m d t g d') (within : g.isWithinProduction) :
    d'.counter = d.counter ∧ d'.pending = d.pending := by
  cases passes with
  | separator | factors | alternatives | closing => exact ⟨rfl, rfl⟩
  | _ => cases within

theorem Concludes.isWithinProduction (concludes : Concludes m d g d')
    (within : g.isWithinProduction) : d'.counter = d.counter ∧ d'.pending = d.pending := by
  cases concludes with
  | separator | factors | alternatives | closing => exact ⟨rfl, rfl⟩
  | _ => cases within

namespace Draft.IsNumbered

/-- A production draws its number when it begins. -/
theorem beginProduction (h : d.IsNumbered known first (g :: goals))
    (begins : g.afterProduction? = some after) (name : String) :
    (d.beginProduction name).IsNumbered known first
      (.separator ":" :: .expression :: .separator ";"
        :: .endProduction (d.counter + 1) name :: after ++ goals) := by
  obtain ⟨outside, none, noneAfter⟩ := number?_of_afterProduction? begins
  have noneBehind := h.oneOpen.openNumbers_eq outside
  have noneNow : openNumbers (after ++ goals) = [] := by
    rw [openNumbers_append, noneAfter, noneBehind, List.append_nil]
  have before := h.numbers
  rw [openNumbers_cons, none, noneBehind, Option.toList_none, List.append_nil,
    List.append_nil] at before
  refine ⟨Nat.le_succ_of_le h.le, ?_, rfl, ?_⟩
  · have inner : OneOpen [.separator ":", .expression, .separator ";",
        .endProduction (d.counter + 1) name] := by
      simp [OneOpen, Goal.isWithinProduction, number?]
    exact inner.append_of_none (oneOpen_of_none noneNow) noneNow
  · have noneElse : openNumbers (.separator ":" :: .expression :: .separator ";"
        :: .endProduction (d.counter + 1) name :: after ++ goals) =
        [((d.counter + 1 : Nat) : Int)] := by
      simp only [List.cons_append, openNumbers_cons, number?, noneNow]
      rfl
    rw [noneElse]
    simp only [Draft.beginProduction]
    rw [before, numbersBetween_succ h.le, List.append_assoc]

/-- At its end a production is a node with this number. -/
theorem endProduction {number : Nat} {name : String}
    (h : d.IsNumbered known first (.endProduction number name :: goals)) :
    (d.endProduction number name).IsNumbered known first goals := by
  have noneBehind := h.oneOpen.openNumbers_eq rfl
  refine ⟨h.le, h.oneOpen.tail, rfl, ?_⟩
  have before := h.numbers
  rw [openNumbers_cons, noneBehind] at before
  rw [noneBehind]
  simpa [Draft.endProduction, Draft.note, Draft.add, h.body, Role.number?, number?] using before

/-- Nothing else touches the numbers. -/
theorem goOn (h : d.IsNumbered known first (g :: goals)) (counter : d'.counter = d.counter)
    (nodes : numbersAll (d'.children ++ d'.pending) = numbersAll (d.children ++ d.pending))
    (body : numbersAll d'.body = []) (none : g.number? = none) (noneNew : openNumbers new = [])
    (within : g.isWithinProduction → ∀ g' ∈ new, g'.isWithinProduction) :
    d'.IsNumbered known first (new ++ goals) := by
  refine ⟨counter ▸ h.le, ?_, body, ?_⟩
  · cases inside : g.isWithinProduction with
    | true => exact h.oneOpen.append_of_within (within inside)
    | false =>
      have noneBehind := h.oneOpen.openNumbers_eq inside
      exact (oneOpen_of_none noneNew).append_of_none h.oneOpen.tail noneBehind
  · have before := h.numbers
    rw [openNumbers_cons, none] at before
    rw [openNumbers_append, noneNew, nodes, counter]
    exact before

/-- So it is where a goal is met and sets no other ones. -/
theorem leave (h : d.IsNumbered known first (g :: goals)) (counter : d'.counter = d.counter)
    (nodes : numbersAll (d'.children ++ d'.pending) = numbersAll (d.children ++ d.pending))
    (body : numbersAll d'.body = []) (none : g.number? = none) :
    d'.IsNumbered known first goals := by
  have next : d'.IsNumbered known first ([] ++ goals) :=
    h.goOn counter nodes body none rfl (fun _ _ mem => nomatch mem)
  exact next

end Draft.IsNumbered

theorem number?_of_afterFactor? (begins : g.afterFactor? = some after) :
    g.number? = none ∧ openNumbers after = [] := by
  obtain ⟨within, inner⟩ := isWithinProduction_of_afterFactor? begins
  refine ⟨number?_of_isWithinProduction within, openNumbers_eq_nil_iff.2 ?_⟩
  intro g' mem
  exact number?_of_isWithinProduction (inner g' mem)

theorem Takes.isNumbered (takes : Takes m depth d t g new d')
    (h : d.IsNumbered known first (g :: goals)) : d'.IsNumbered known first (new ++ goals) := by
  have within := fun inside => (takes.isWithinProduction inside).1
  have body := h.body
  cases takes with
  | production begins => exact h.beginProduction begins _
  | nonterminal begins | terminal begins | group begins | action begins =>
    obtain ⟨none, noneAfter⟩ := number?_of_afterFactor? begins
    refine h.goOn rfl rfl ?_ none ?_ within
    · simp [Draft.attach, body, Role.number?]
    · simp [openNumbers_cons, noneAfter, number?]
  | _ =>
    refine h.goOn rfl ?_ ?_ rfl rfl within
    · simp [Draft.add, Draft.note, Draft.attach, Role.number?]
    · simp [Draft.add, Draft.note, Draft.attach, Role.number?, body]

theorem Passes.isNumbered (passes : Passes m d t g d')
    (h : d.IsNumbered known first (g :: goals)) : d'.IsNumbered known first goals := by
  have body := h.body
  cases passes with
  | endProduction => exact h.endProduction
  | _ =>
    refine h.leave rfl ?_ ?_ rfl
    · simp [Draft.note, Draft.attach, Draft.commit]
    · simp [Draft.note, Draft.attach, Draft.commit, Role.number?, body]

theorem Concludes.isNumbered (concludes : Concludes m d g d')
    (h : d.IsNumbered known first (g :: goals)) : d'.IsNumbered known first goals := by
  have body := h.body
  cases concludes with
  | endProduction => exact h.endProduction
  | _ =>
    refine h.leave rfl ?_ ?_ rfl
    · simp [Draft.attach, Draft.commit]
    · simp [Draft.attach, Draft.commit, Role.number?, body]

theorem ReadingStep.isNumbered {c c' : Configuration} (step : ReadingStep m c c')
    (h : c.draft.IsNumbered known first c.goals) : c'.draft.IsNumbered known first c'.goals := by
  cases step with
  | take takes => exact takes.isNumbered h
  | pass passes => exact passes.isNumbered h
  | conclude done => exact (concludes_of_conclude_eq done).isNumbered h

theorem ReadingSteps.isNumbered {c c' : Configuration} (steps : ReadingSteps m c c')
    (h : c.draft.IsNumbered known first c.goals) : c'.draft.IsNumbered known first c'.goals :=
  steps.keeps (P := fun c => c.draft.IsNumbered known first c.goals) ReadingStep.isNumbered h

end Steps

/-! ### Readings -/

theorem Draft.pending_endProduction (d : Draft) (number : Nat) (name : String) :
    (d.endProduction number name).pending = d.pending ++ [.node (.production number) d.body] :=
  rfl

section Readings

open Goal GrammarNotation.Tree

variable {m : Mode} {goals : List Goal} {d : Draft} {ts : List Token}

/-- A reading accounts for its numbers, and if it succeeds no production is left open. -/
theorem isNumbered_read (m : Mode) {known : List Int} {first : Nat}
    (h : d.IsNumbered known first goals) (ts : List Token) :
    ∃ left, (read m goals d ts).draft.IsNumbered known first left ∧
      ((read m goals d ts).fault = none → left = []) := by
  obtain ⟨c, steps, stops⟩ := exists_stops_of_read m goals d ts
  have last := steps.isNumbered h
  refine ⟨c.goals, by rwa [stops.draft_eq], ?_⟩
  generalize read m goals d ts = o at stops
  intro ok
  cases stops with
  | met => rfl
  | refused | missing => cases ok

/-- What a reading attaches to the tree, and what is left beside it or open. -/
theorem exists_attached_read {m : Mode} {goals : List Goal} {children body : List Tree}
    {counter : Nat} {ts : List Token} {o : Outcome}
    (eq : read m goals (.resume children body counter) ts = o) (noneOpen : openNumbers goals = [])
    (free : numbersAll body = []) :
    counter ≤ o.draft.counter ∧ numbersAll o.draft.body = [] ∧ ∃ attached lost,
      numbersAll o.draft.children = numbersAll children ++ attached ∧
      attached ++ numbersAll o.draft.pending ++ lost = numbersBetween counter o.draft.counter ∧
      (o.fault = none → lost = []) := by
  have start : (Draft.resume children body counter).IsNumbered (numbersAll children) counter
      goals := by
    refine ⟨Nat.le_refl _, oneOpen_of_none noneOpen, free, ?_⟩
    simp [Draft.resume, noneOpen]
  obtain ⟨left, last, closed⟩ := isNumbered_read m start ts
  obtain ⟨added, grown⟩ := (growsTo_read m goals (.resume children body counter) ts).children
  rw [eq] at last closed grown
  refine ⟨last.le, last.body, numbersAll added, openNumbers left, ?_, ?_, ?_⟩
  · rw [← grown, numbersAll_append]
    rfl
  · have numbers := last.numbers
    rw [← grown] at numbers
    simpa [Draft.resume] using numbers
  · intro ok
    rw [closed ok]
    rfl

/-- Reading within a production touches its body alone. -/
theorem read_of_isWithinProduction (m : Mode) (within : ∀ g ∈ goals, g.isWithinProduction)
    (d : Draft) (ts : List Token) :
    (read m goals d ts).draft.counter = d.counter ∧
      (read m goals d ts).draft.pending = d.pending := by
  obtain ⟨c, steps, stops⟩ := exists_stops_of_read m goals d ts
  rw [stops.draft_eq]
  have kept := steps.keeps (P := fun c => (∀ g ∈ c.goals, g.isWithinProduction) ∧
    c.draft.counter = d.counter ∧ c.draft.pending = d.pending) ?_ ⟨within, rfl, rfl⟩
  · exact kept.2
  rintro c c' step ⟨within, counter, pending⟩
  cases step with
  | take takes =>
    obtain ⟨inside, rest⟩ := List.forall_mem_cons.1 within
    obtain ⟨inner, counter', pending'⟩ := takes.isWithinProduction inside
    exact ⟨List.forall_mem_append.2 ⟨inner, rest⟩, counter'.trans counter, pending'.trans pending⟩
  | pass passes =>
    obtain ⟨inside, rest⟩ := List.forall_mem_cons.1 within
    obtain ⟨counter', pending'⟩ := passes.isWithinProduction inside
    exact ⟨rest, counter'.trans counter, pending'.trans pending⟩
  | conclude done =>
    obtain ⟨inside, rest⟩ := List.forall_mem_cons.1 within
    obtain ⟨counter', pending'⟩ := (concludes_of_conclude_eq done).isWithinProduction inside
    exact ⟨rest, counter'.trans counter, pending'.trans pending⟩

/-- The node of a grammar section is its name. -/
theorem exists_pending_read_grammarName (ready : d.pending = [])
    (ok : (read m [.grammarName] d ts).fault = none) :
    ∃ name, (read m [.grammarName] d ts).draft.pending = [.leaf (.grammar name)] := by
  cases ts with
  | nil => cases ok
  | cons t ts =>
    by_cases kind : t.kind = .identifier
    · have named : read m [.grammarName] d (t :: ts) =
          read m ([.separator ";"] ++ []) (d.add (.leaf (.grammar t.text))) ts :=
        read_take (.grammarName kind) ts
      have within : ∀ g ∈ [Goal.separator ";"] ++ [], g.isWithinProduction := by decide
      rw [named, (read_of_isWithinProduction m within _ ts).2]
      exact ⟨t.text, by simp [Draft.add, ready]⟩
    · rw [fault_read_of_refuses (.grammarName kind)] at ok
      cases ok

/-- The node of a production carries its number. -/
theorem exists_pending_read_production (ready : d.pending = [])
    (ok : (read m [.production] d ts).fault = none) :
    ∃ number body,
      (read m [.production] d ts).draft.pending = [.node (.production number) body] := by
  cases ts with
  | nil => cases ok
  | cons t ts =>
    by_cases kind : t.kind = .identifier
    · have taken : read m [.production] d (t :: ts) = read m ([.separator ":", .expression,
          .separator ";", .endProduction (d.counter + 1) t.text] ++ []) (d.beginProduction t.text)
            ts := read_take (.production rfl kind) ts
      have begun : read m [.production] d (t :: ts) =
          read m ([.separator ":", .expression, .separator ";"] ++
            [.endProduction (d.counter + 1) t.text]) (d.beginProduction t.text) ts := taken
      have within : ∀ g ∈ [Goal.separator ":", .expression, .separator ";"],
          g.isWithinProduction := by decide
      rw [begun, read_append m rfl] at ok ⊢
      have inner := Outcome.fault_eq_none_of_andThen ok
      have pending := (read_of_isWithinProduction m within (d.beginProduction t.text) ts).2
      rw [Outcome.andThen_of_none inner, read_endProduction, read_nil]
      generalize (read m _ (d.beginProduction t.text) ts).draft = d' at pending ⊢
      refine ⟨(d.counter + 1 : Nat), d'.body, ?_⟩
      rw [Draft.pending_endProduction, pending, Draft.beginProduction, ready, List.nil_append]
    · rw [fault_read_of_refuses (.production rfl kind (fun h => Goal.noConfusion h))] at ok
      cases ok

end Readings

end GrammarNotation
