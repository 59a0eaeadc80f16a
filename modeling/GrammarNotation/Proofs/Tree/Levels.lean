import GrammarNotation.Tree.Traversal

/-!
# Levels of a tree

The nodes of a tree in order of descent, each with its level and its description, are enough to
tell how the tree is built: the children of a node are what follows on the next level, up to a node
on its own level or above.

## Main definitions

- `Tree.Resembles` — two trees of the same shape, with the same descriptions
- `Tree.levels` — the nodes of a tree with their levels

## Main statements

- `Tree.levels_append_inj` — trees are told apart by their levels, whatever stands behind them
- `Tree.resembles_of_levels_eq` — trees with the same levels resemble each other
-/

namespace GrammarNotation

namespace Tree

mutual

/-- **The trees have the same shape**, and the same description at each node. -/
def Resembles : Tree → Tree → Prop
  | .node r cs, .node q ds => r.description = q.description ∧ ResembleAll cs ds

/-- The same for lists of trees, one by one. -/
def ResembleAll : List Tree → List Tree → Prop
  | [], [] => True
  | t :: ts, u :: us => t.Resembles u ∧ ResembleAll ts us
  | _, _ => False

end

mutual

/-- The nodes of a tree in order of descent, each as its level and its description. -/
def levels (level : Nat) : Tree → List (Nat × String)
  | .node r cs => (level, r.description) :: levelsAll (level + 1) cs

/-- The nodes of the trees of a list, all on the same level. -/
def levelsAll (level : Nat) : List Tree → List (Nat × String)
  | [] => []
  | t :: ts => t.levels level ++ levelsAll level ts

end

/-- Trees on a level begin on it, and what stands behind them may begin above it. -/
theorem level_le_of_mem_head? {level : Nat} {ts : List Tree} {xs : List (Nat × String)}
    (above : ∀ e ∈ xs.head?, e.1 < level) :
    ∀ e ∈ (levelsAll level ts ++ xs).head?, e.1 ≤ level := by
  intro e mem
  cases ts with
  | nil => exact Nat.le_of_lt (above e mem)
  | cons t ts =>
    obtain ⟨r, cs⟩ := t
    obtain rfl := Option.some.inj mem
    exact Nat.le_refl level

/-- **Trees are told apart by their levels**: what stands behind a tree begins on the level of the
tree or above. -/
theorem levels_append_inj {t u : Tree} {level : Nat} {xs ys : List (Nat × String)}
    (hx : ∀ e ∈ xs.head?, e.1 ≤ level) (hy : ∀ e ∈ ys.head?, e.1 ≤ level)
    (h : t.levels level ++ xs = u.levels level ++ ys) : t.Resembles u ∧ xs = ys := by
  induction t using Tree.preorder.induct
    (motive_2 := fun ts => ∀ {us : List Tree} {level : Nat} {xs ys : List (Nat × String)},
      (∀ e ∈ xs.head?, e.1 < level) → (∀ e ∈ ys.head?, e.1 < level) →
      levelsAll level ts ++ xs = levelsAll level us ++ ys → ResembleAll ts us ∧ xs = ys)
    generalizing u level xs ys with
  | case1 r cs ih =>
    obtain ⟨q, ds⟩ := u
    obtain ⟨first, below⟩ := List.cons.inj h
    obtain ⟨children, rest⟩ := ih (fun e mem => Nat.lt_succ_of_le (hx e mem))
      (fun e mem => Nat.lt_succ_of_le (hy e mem)) below
    exact ⟨⟨(Prod.mk.inj first).2, children⟩, rest⟩
  | case2 =>
    rename_i us level xs ys hx hy h
    cases us with
    | nil => exact ⟨trivial, h⟩
    | cons u us =>
      -- The first list has come to its end, and what follows is above the level.
      obtain ⟨q, ds⟩ := u
      have first : (level, q.description) ∈ xs.head? := by
        rw [show xs = _ from h]
        rfl
      exact absurd (hx _ first) (Nat.lt_irrefl level)
  | case3 t ts iht ihts =>
    rename_i us level xs ys hx hy h
    cases us with
    | nil =>
      obtain ⟨r, cs⟩ := t
      have first : (level, r.description) ∈ ys.head? := by
        rw [show ys = _ from h.symm]
        rfl
      exact absurd (hy _ first) (Nat.lt_irrefl level)
    | cons u us =>
      rw [levelsAll, levelsAll, List.append_assoc, List.append_assoc] at h
      obtain ⟨first, others⟩ := iht (level_le_of_mem_head? hx) (level_le_of_mem_head? hy) h
      obtain ⟨siblings, rest⟩ := ihts hx hy others
      exact ⟨⟨first, siblings⟩, rest⟩

/-- Trees with the same levels resemble each other. -/
theorem resembles_of_levels_eq {t u : Tree} {level : Nat} (h : t.levels level = u.levels level) :
    t.Resembles u := by
  have h : t.levels level ++ [] = u.levels level ++ [] := congrArg (· ++ []) h
  exact (levels_append_inj (by simp) (by simp) h).1

/-- The levels of trees further down. -/
theorem levelsAll_add (level more : Nat) (ts : List Tree) :
    levelsAll (level + more) ts = (levelsAll level ts).map fun e => (e.1 + more, e.2) := by
  induction ts using Tree.preorderAll.induct
    (motive_1 := fun t => ∀ level, t.levels (level + more) =
      (t.levels level).map fun e => (e.1 + more, e.2)) generalizing level with
  | case1 r cs ih => simp [levels, Nat.add_right_comm _ more 1, ih]
  | case2 => rfl
  | case3 t ts iht ihts => simp [levelsAll, iht, ihts]

/-- The descriptions among the levels are those of the nodes. -/
theorem map_snd_levels (level : Nat) (t : Tree) :
    (t.levels level).map Prod.snd = t.preorder.map (·.role.description) := by
  induction t using Tree.preorder.induct
    (motive_2 := fun ts => ∀ level,
      (levelsAll level ts).map Prod.snd = (preorderAll ts).map (·.role.description))
    generalizing level with
  | case1 r cs ih => simp [levels, preorder, ih]
  | case2 => rfl
  | case3 t ts iht ihts => simp [levelsAll, preorderAll, iht, ihts]

end Tree

end GrammarNotation
