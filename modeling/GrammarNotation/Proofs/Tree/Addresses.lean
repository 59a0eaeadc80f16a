import GrammarNotation.Tree.Traversal
import Mathlib.Data.List.Nodup

/-!
# Addresses of nodes

Equal subtrees may stand in several places of a tree, so a node is told by its address: which child
to go to on each level. The addresses in order of descent number the nodes.

## Main definitions

- `Tree.get?` — the subtree at an address
- `Tree.addresses` — the addresses of all nodes in order of descent
- `Tree.number` — the place of an address among them

## Main statements

- `Tree.map_get?_addresses` — at the addresses stand the nodes, in order of descent
- `Tree.mem_addresses_iff`, `Tree.nodup_addresses` — each node has one address
- `Tree.number_append` — the numbers below a node follow its own
-/

namespace GrammarNotation

namespace Tree

/-- The subtree at an address, which names a child on each level. -/
def get? (t : Tree) : List Nat → Option Tree
  | [] => some t
  | i :: a => t.children[i]?.bind fun c => c.get? a

mutual

/-- The addresses of the nodes of a tree in order of descent. -/
def addresses : Tree → List (List Nat)
  | .node _ cs => [] :: addressesAll 0 cs

/-- The addresses of the nodes of some children in a row, the first of which has the number `i`. -/
def addressesAll (i : Nat) : List Tree → List (List Nat)
  | [] => []
  | t :: ts => t.addresses.map (i :: ·) ++ addressesAll (i + 1) ts

end

/-- **The number of a node**: the place of its address in order of descent. -/
def number (t : Tree) (a : List Nat) : Nat :=
  t.addresses.idxOf a

/-! ### Subtrees -/

section Subtrees

variable {t s c : Tree} {r : Role} {cs : List Tree} {i : Nat} {a b : List Nat}

@[simp]
theorem get?_nil (t : Tree) : t.get? [] = some t := rfl

theorem get?_cons (h : t.children[i]? = some c) : t.get? (i :: a) = c.get? a := by
  rw [get?, h]
  rfl

theorem get?_cons_eq_some_iff :
    t.get? (i :: a) = some s ↔ ∃ c, t.children[i]? = some c ∧ c.get? a = some s := by
  rw [get?]
  exact Option.bind_eq_some_iff

/-- Going down one address and then another one. -/
theorem get?_append (h : t.get? a = some s) (b : List Nat) : t.get? (a ++ b) = s.get? b := by
  induction a generalizing t with
  | nil =>
    obtain rfl := Option.some.inj h
    rfl
  | cons i a ih =>
    obtain ⟨c, child, below⟩ := get?_cons_eq_some_iff.1 h
    rw [List.cons_append, get?_cons child]
    exact ih below

end Subtrees

/-! ### Addresses -/

section Addresses

variable {t s c : Tree} {ts : List Tree} {i j : Nat} {a b : List Nat}

theorem mem_addressesAll_iff :
    b ∈ addressesAll i ts ↔ ∃ j t a, ts[j]? = some t ∧ a ∈ t.addresses ∧ b = (i + j) :: a := by
  induction ts generalizing i with
  | nil => simp [addressesAll]
  | cons t ts ih =>
    rw [addressesAll, List.mem_append, List.mem_map, ih]
    constructor
    · rintro (⟨a, mem, rfl⟩ | ⟨j, u, a, child, mem, rfl⟩)
      · exact ⟨0, t, a, rfl, mem, rfl⟩
      · refine ⟨j + 1, u, a, child, mem, ?_⟩
        rw [Nat.add_assoc, Nat.add_comm 1 j]
    · rintro ⟨_ | j, u, a, child, mem, rfl⟩
      · obtain rfl := Option.some.inj child
        exact .inl ⟨a, mem, rfl⟩
      · refine .inr ⟨j, u, a, child, mem, ?_⟩
        rw [Nat.add_assoc, Nat.add_comm 1 j]

@[simp]
theorem nil_mem_addresses (t : Tree) : [] ∈ t.addresses := by
  cases t
  exact List.mem_cons_self

theorem cons_mem_addresses_iff :
    i :: a ∈ t.addresses ↔ ∃ c, t.children[i]? = some c ∧ a ∈ c.addresses := by
  obtain ⟨r, cs⟩ := t
  rw [addresses, List.mem_cons, mem_addressesAll_iff]
  simp

/-- The addresses are those at which there is a subtree. -/
theorem mem_addresses_iff : a ∈ t.addresses ↔ ∃ s, t.get? a = some s := by
  induction a generalizing t with
  | nil => simp
  | cons i a ih =>
    rw [cons_mem_addresses_iff]
    constructor
    · rintro ⟨c, child, mem⟩
      obtain ⟨s, below⟩ := ih.1 mem
      exact ⟨s, get?_cons_eq_some_iff.2 ⟨c, child, below⟩⟩
    · rintro ⟨s, below⟩
      obtain ⟨c, child, below⟩ := get?_cons_eq_some_iff.1 below
      exact ⟨c, child, ih.2 ⟨s, below⟩⟩

/-- Above a node there are nodes. -/
theorem mem_addresses_of_append (mem : a ++ b ∈ t.addresses) : a ∈ t.addresses := by
  induction a generalizing t with
  | nil => exact nil_mem_addresses t
  | cons i a ih =>
    obtain ⟨c, child, below⟩ := cons_mem_addresses_iff.1 mem
    exact cons_mem_addresses_iff.2 ⟨c, child, ih below⟩

theorem dropLast_mem_addresses (mem : a ∈ t.addresses) : a.dropLast ∈ t.addresses := by
  obtain ⟨b, eq⟩ := List.dropLast_prefix a
  exact mem_addresses_of_append (eq ▸ mem)

/-- Each node has one address. -/
theorem nodup_addresses (t : Tree) : t.addresses.Nodup := by
  induction t using Tree.preorder.induct
    (motive_2 := fun ts => ∀ i, (addressesAll i ts).Nodup) with
  | case1 r cs ih =>
    refine List.nodup_cons.2 ⟨?_, ih 0⟩
    simp [mem_addressesAll_iff]
  | case2 => exact List.nodup_nil
  | case3 t ts iht ihts =>
    rename_i i
    refine List.nodup_append.2 ⟨iht.map List.cons_injective, ihts (i + 1), ?_⟩
    intro a mem b mem' same
    obtain ⟨a, -, rfl⟩ := List.mem_map.1 mem
    obtain ⟨j, u, b, -, -, rfl⟩ := mem_addressesAll_iff.1 mem'
    have := (List.cons.inj same).1
    omega

/-- **At the addresses stand the nodes**, in the same order. -/
theorem map_get?_addresses (t : Tree) : t.addresses.map t.get? = t.preorder.map some := by
  -- For lists it is about the children of a node behind those in `front`.
  induction t using Tree.preorder.induct
    (motive_2 := fun ts => ∀ r front,
      (addressesAll front.length ts).map (get? (.node r (front ++ ts))) =
        (preorderAll ts).map some) with
  | case1 r cs ih =>
    have below := ih r []
    rw [addresses, preorder, List.map_cons, List.map_cons]
    exact congrArg (_ :: ·) below
  | case2 => rfl
  | case3 t ts iht ihts =>
    rename_i r front
    have child : (node r (front ++ t :: ts)).children[front.length]? = some t := by simp
    have first : (t.addresses.map (front.length :: ·)).map (get? (.node r (front ++ t :: ts))) =
        t.addresses.map t.get? := by
      rw [List.map_map]
      apply List.map_congr_left
      intro a _
      exact get?_cons child
    have others := ihts r (front ++ [t])
    rw [List.append_assoc, List.singleton_append, List.length_append, List.length_singleton]
      at others
    rw [addressesAll, List.map_append, first, others, iht, preorderAll, List.map_append]

example : (node .root [.node (.production 1) [.leaf (.head "S")], .leaf .blank]).addresses =
    [[], [0], [0, 0], [1]] := rfl

theorem length_addresses (t : Tree) : t.addresses.length = t.size := by
  have lengths := congrArg List.length t.map_get?_addresses
  rwa [List.length_map, List.length_map, length_preorder] at lengths

/-! ### Numbers -/

theorem getElem?_number (h : a ∈ t.addresses) : t.addresses[t.number a]? = some a :=
  List.getElem?_idxOf h

/-- At the number of a node stands this node. -/
theorem getElem?_walk_number (h : t.get? a = some s) : t.walk[t.number a]? = some s := by
  have place := getElem?_number (mem_addresses_iff.2 ⟨s, h⟩)
  have same := congrArg (·[t.number a]?) t.map_get?_addresses
  rw [← walk_eq_preorder] at same
  simp only [List.getElem?_map, place, Option.map_some, h] at same
  cases found : t.walk[t.number a]? with
  | none => simp [found] at same
  | some u => rw [found] at same; simpa using same.symm

theorem number_inj (ha : a ∈ t.addresses) : t.number a = t.number b ↔ a = b :=
  List.idxOf_inj ha

@[simp]
theorem number_nil (t : Tree) : t.number [] = 0 := by
  cases t
  rfl

theorem number_eq_of_getElem? {k : Nat} (h : t.addresses[k]? = some a) : t.number a = k := by
  have place := getElem?_number (List.mem_of_getElem? h)
  have inside : t.number a < t.addresses.length := (List.getElem?_eq_some_iff.1 place).1
  exact (List.getElem?_inj inside t.nodup_addresses).1 (place.trans h.symm)

/-- In front of the nodes of a child stand those of the children before it. -/
theorem getElem?_addressesAll {k : Nat} (child : ts[j]? = some t)
    (place : t.addresses[k]? = some a) :
    (addressesAll i ts)[sizeAll (ts.take j) + k]? = some ((i + j) :: a) := by
  induction ts generalizing i j with
  | nil => cases child
  | cons u ts ih =>
    have length : (u.addresses.map (i :: ·)).length = u.size := by
      rw [List.length_map, length_addresses]
    rw [addressesAll]
    cases j with
    | zero =>
      obtain rfl := Option.some.inj child
      have inside : k < u.addresses.length := (List.getElem?_eq_some_iff.1 place).1
      have start : sizeAll ((u :: ts).take 0) + k = k := Nat.zero_add k
      rw [start, List.getElem?_append_left (by rwa [List.length_map]), List.getElem?_map, place]
      rfl
    | succ j =>
      -- The addresses in the first child are as many as its nodes.
      have start : sizeAll ((u :: ts).take (j + 1)) = u.size + sizeAll (ts.take j) := by
        rw [List.take_succ_cons, sizeAll]
      have later := ih child (i := i + 1)
      rw [start, Nat.add_assoc, List.getElem?_append_right (by omega), length,
        Nat.add_sub_cancel_left, later]
      rw [Nat.add_assoc, Nat.add_comm 1 j]

/-- The number below a child counts the node itself and the children before. -/
theorem number_cons (child : t.children[i]? = some c) (mem : a ∈ c.addresses) :
    t.number (i :: a) = 1 + sizeAll (t.children.take i) + c.number a := by
  obtain ⟨r, cs⟩ := t
  apply number_eq_of_getElem?
  have below := getElem?_addressesAll (i := 0) child (getElem?_number mem)
  rw [Nat.zero_add] at below
  rw [addresses, Nat.add_assoc, Nat.add_comm 1, List.getElem?_cons_succ]
  exact below

/-- **The numbers below a node follow its own.** -/
theorem number_append (h : t.get? a = some s) (mem : b ∈ s.addresses) :
    t.number (a ++ b) = t.number a + s.number b := by
  induction a generalizing t with
  | nil =>
    obtain rfl := Option.some.inj h
    rw [number_nil, List.nil_append, Nat.zero_add]
  | cons i a ih =>
    obtain ⟨c, child, below⟩ := get?_cons_eq_some_iff.1 h
    obtain ⟨u, found⟩ := mem_addresses_iff.1 mem
    have inner : a ++ b ∈ c.addresses := mem_addresses_iff.2 ⟨u, (get?_append below b).trans found⟩
    rw [List.cons_append, number_cons child inner, ih below,
      number_cons child (mem_addresses_iff.2 ⟨s, below⟩)]
    omega

/-- A node comes before the nodes below it. -/
theorem number_lt_append (mem : a ++ b ∈ t.addresses) (below : b ≠ []) :
    t.number a < t.number (a ++ b) := by
  obtain ⟨s, above⟩ := mem_addresses_iff.1 (mem_addresses_of_append mem)
  obtain ⟨u, found⟩ := mem_addresses_iff.1 mem
  have inner : b ∈ s.addresses := mem_addresses_iff.2 ⟨u, (get?_append above b).symm.trans found⟩
  have positive : s.number b ≠ 0 := by
    rw [← number_nil s, ne_eq, number_inj inner]
    exact below
  rw [number_append above inner]
  omega

/-- A node comes behind the one above it. -/
theorem number_dropLast_lt (mem : a ∈ t.addresses) (ne : a ≠ []) :
    t.number a.dropLast < t.number a := by
  have split := List.dropLast_append_getLast ne
  have lt := number_lt_append (split.symm ▸ mem) (List.cons_ne_nil (a.getLast ne) [])
  rwa [split] at lt

end Addresses

end Tree

end GrammarNotation
