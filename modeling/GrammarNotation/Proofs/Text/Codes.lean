import GrammarNotation.Text.Decimal

/-!
# Texts that are read back item by item

A text that is put together from items can be taken apart again if the text of an item shows where
it ends, whatever stands behind it. Most items end in front of a character that they cannot hold.

## Main statements

- `append_inj_of_head` — two parts are told apart where a property of characters ends
- `flatMap_append_inj` — items whose texts show where they end
- `digits_append_inj` — a number shows where it ends
-/

namespace GrammarNotation.Text

variable {α β : Type}

/-- Two front parts whose items all have a property, in front of remainders that begin with an item
that has not, are told apart. -/
theorem append_inj_of_head {p : α → Prop} {xs ys v w : List α} (hx : ∀ a ∈ xs, p a)
    (hy : ∀ a ∈ ys, p a) (hv : ∀ a ∈ v.head?, ¬ p a) (hw : ∀ a ∈ w.head?, ¬ p a)
    (h : xs ++ v = ys ++ w) : xs = ys ∧ v = w := by
  induction xs generalizing ys with
  | nil =>
    cases ys with
    | nil => exact ⟨rfl, h⟩
    | cons b ys =>
      subst h
      exact absurd (hy b List.mem_cons_self) (hv b rfl)
  | cons a xs ih =>
    cases ys with
    | nil =>
      subst h
      exact absurd (hx a List.mem_cons_self) (hw a rfl)
    | cons b ys =>
      rw [List.forall_mem_cons] at hx hy
      obtain ⟨rfl, others⟩ := List.cons.inj h
      obtain ⟨rfl, rest⟩ := ih hx.2 hy.2 others
      exact ⟨rfl, rest⟩

/-- Texts without a certain character are told apart in front of it. -/
theorem append_inj_of_notMem {a : α} {xs ys v w : List α} (hx : a ∉ xs) (hy : a ∉ ys)
    (h : xs ++ a :: v = ys ++ a :: w) : xs = ys ∧ v = w := by
  have other : ∀ {zs : List α}, a ∉ zs → ∀ b ∈ zs, b ≠ a := by
    rintro zs notMem b mem rfl
    exact notMem mem
  obtain ⟨front, rest⟩ := append_inj_of_head (v := a :: v) (w := a :: w) (other hx) (other hy)
    (by simp) (by simp) h
  exact ⟨front, (List.cons.inj rest).2⟩

/-- **A row of items is read back item by item**, if the text of each item can be told from what
stands behind it, and none begins the text that stands behind the last. -/
theorem flatMap_append_inj (f : α → List β) {xs ys : List α} (rest : List β)
    (reads : ∀ a ∈ xs, ∀ b ∈ ys, ∀ v w, f a ++ v = f b ++ w → a = b ∧ v = w)
    (ends : ∀ a v, f a ++ v ≠ rest) (h : xs.flatMap f ++ rest = ys.flatMap f ++ rest) :
    xs = ys := by
  induction xs generalizing ys with
  | nil =>
    cases ys with
    | nil => rfl
    | cons b ys =>
      rw [List.flatMap_nil, List.nil_append, List.flatMap_cons, List.append_assoc] at h
      exact absurd h.symm (ends b _)
  | cons a xs ih =>
    cases ys with
    | nil =>
      rw [List.flatMap_nil, List.nil_append, List.flatMap_cons, List.append_assoc] at h
      exact absurd h (ends a _)
    | cons b ys =>
      rw [List.flatMap_cons, List.flatMap_cons, List.append_assoc, List.append_assoc] at h
      obtain ⟨rfl, others⟩ := reads a List.mem_cons_self b List.mem_cons_self _ _ h
      have inner : ∀ a ∈ xs, ∀ b ∈ ys, ∀ v w, f a ++ v = f b ++ w → a = b ∧ v = w := by
        intro a ha b hb
        exact reads a (List.mem_cons_of_mem _ ha) b (List.mem_cons_of_mem _ hb)
      rw [ih inner others]

/-- A number in front of a character that is no digit shows where it ends. -/
theorem digits_append_inj {m n : Nat} {v w : List Char} (hv : ∀ c ∈ v.head?, c.isDigit = false)
    (hw : ∀ c ∈ w.head?, c.isDigit = false) (h : digits m ++ v = digits n ++ w) :
    m = n ∧ v = w := by
  have digit : ∀ k, ∀ c ∈ digits k, c.isDigit = true := fun k c mem => isDigit_of_mem_digits mem
  have other : ∀ {v : List Char}, (∀ c ∈ v.head?, c.isDigit = false) →
      ∀ c ∈ v.head?, ¬ c.isDigit = true := by
    intro v hv c mem
    simp [hv c mem]
  obtain ⟨front, rest⟩ := append_inj_of_head (digit m) (digit n) (other hv) (other hw) h
  exact ⟨digits_injective front, rest⟩

end GrammarNotation.Text
