import GrammarNotation.Proofs.Tree.Addresses
import Mathlib.Logic.Function.Iterate

/-!
# Agreement of the traversals

A walk with a stack and the recursive descents visit the same nodes in the same order: each node
once, a node before those below it, and those below a child before those below a later child. What
a walk has yielded, together with what its pending nodes have still to yield, is the same after
every round, and each round takes one node off what is pending.

## Main definitions

- `Tree.located` — the nodes of a tree with their addresses in order of descent
- `Tree.Precedes`, `Tree.IsDescent` — each node once and in order
- `Tree.Walk` — a walk under way, and one round of it

## Main statements

- `Tree.isDescent_located` — a descent lists each node once and in order
- `Tree.Walk.coming_round`, `Tree.Walk.iterate_round` — what a round keeps, and where rounds end
- `Tree.traversals_agree` — a walk ends, and all traversals visit the same nodes in order
-/

namespace GrammarNotation

namespace Tree

/-- A node of a tree: its address and the subtree that stands there. -/
@[ext]
structure Located where
  address : List Nat
  subtree : Tree

/-- The node as seen from further up, where its own tree stands at the address `a`. -/
def Located.under (a : List Nat) (n : Located) : Located := ⟨a ++ n.address, n.subtree⟩

/-- The children of a node in their order. -/
def Located.below (n : Located) : List Located :=
  n.subtree.children.zipIdx.map fun c => ⟨n.address ++ [c.2], c.1⟩

mutual

/-- The nodes of a tree with their addresses in order of descent. -/
def located : Tree → List Located
  | .node r cs => ⟨[], .node r cs⟩ :: locatedAll 0 cs

/-- The nodes below some children in a row, the first of which has the number `i`. -/
def locatedAll (i : Nat) : List Tree → List Located
  | [] => []
  | t :: ts => t.located.map (Located.under [i]) ++ locatedAll (i + 1) ts

end

/-- **The node at the first address comes first**: it is above the other one, or below an earlier
child of a node that is above both. -/
inductive Precedes : List Nat → List Nat → Prop
  | above (a : List Nat) {b : List Nat} (ne : b ≠ []) : Precedes a (a ++ b)
  | earlier (a : List Nat) {i j : Nat} (lt : i < j) (b c : List Nat) :
      Precedes (a ++ i :: b) (a ++ j :: c)

/-- **The nodes in order of descent**: each one once, a node before those below it, and those below
a child before those below a later child. -/
structure IsDescent (t : Tree) (ns : List Located) : Prop where
  mem_iff : ∀ n, n ∈ ns ↔ t.get? n.address = some n.subtree
  nodup : (ns.map (·.address)).Nodup
  pairwise : ns.Pairwise fun m n => Precedes m.address n.address

/-! ### Order of descent -/

section Descent

variable {t : Tree} {n : Located}

theorem map_address_located (t : Tree) : t.located.map (·.address) = t.addresses := by
  induction t using Tree.preorder.induct
    (motive_2 := fun ts => ∀ i, (locatedAll i ts).map (·.address) = addressesAll i ts) with
  | case1 r cs ih => rw [located, addresses, List.map_cons, ih 0]
  | case2 => rfl
  | case3 t ts iht ihts =>
    rename_i i
    rw [locatedAll, addressesAll, List.map_append, ihts, ← iht, List.map_map, List.map_map]
    rfl

theorem map_subtree_located (t : Tree) : t.located.map (·.subtree) = t.preorder := by
  induction t using Tree.preorder.induct
    (motive_2 := fun ts => ∀ i, (locatedAll i ts).map (·.subtree) = preorderAll ts) with
  | case1 r cs ih => rw [located, preorder, List.map_cons, ih 0]
  | case2 => rfl
  | case3 t ts iht ihts =>
    rename_i i
    rw [locatedAll, preorderAll, List.map_append, ihts, ← iht, List.map_map]
    rfl

theorem Located.map_subtree_below (n : Located) : n.below.map (·.subtree) = n.subtree.children := by
  rw [below, List.map_map]
  exact List.zipIdx_map_fst 0 n.subtree.children

theorem Located.under_under (a b : List Nat) (n : Located) :
    (n.under b).under a = n.under (a ++ b) := by
  simp [under]

theorem map_under_locatedAll (a : List Nat) (i : Nat) (ts : List Tree) :
    (locatedAll i ts).map (Located.under a) =
      (ts.zipIdx i).flatMap fun c => c.1.located.map (Located.under (a ++ [c.2])) := by
  induction ts generalizing i with
  | nil => rfl
  | cons t ts ih =>
    rw [locatedAll, List.map_append, List.zipIdx_cons, List.flatMap_cons, ih, List.map_map]
    congr 1
    exact List.map_congr_left fun n _ => Located.under_under a [i] n

/-- A node comes before the nodes below it, which come child by child. -/
theorem map_under_located (n : Located) :
    n.subtree.located.map (Located.under n.address) =
      n :: n.below.flatMap fun c => c.subtree.located.map (Located.under c.address) := by
  obtain ⟨a, r, cs⟩ := n
  rw [located, List.map_cons, map_under_locatedAll, Located.below, List.flatMap_map]
  simp [Located.under]

theorem get?_of_mem_located (mem : n ∈ t.located) : t.get? n.address = some n.subtree := by
  have same := t.map_get?_addresses
  rw [← map_address_located, ← map_subtree_located, List.map_map, List.map_map] at same
  exact List.map_inj_left.1 same n mem

/-- The nodes are those that stand at some address. -/
theorem mem_located_iff : n ∈ t.located ↔ t.get? n.address = some n.subtree := by
  constructor
  · exact get?_of_mem_located
  · intro found
    have mem : n.address ∈ t.located.map (·.address) := by
      rw [map_address_located]
      exact mem_addresses_iff.2 ⟨n.subtree, found⟩
    obtain ⟨m, inside, same⟩ := List.mem_map.1 mem
    have there := get?_of_mem_located inside
    rw [same, found] at there
    exact Located.ext same (Option.some.inj there).symm ▸ inside

theorem Precedes.cons {a b : List Nat} (h : Precedes a b) (i : Nat) :
    Precedes (i :: a) (i :: b) := by
  cases h with
  | above _ ne => exact .above (i :: a) ne
  | earlier d lt b c => exact .earlier (i :: d) lt b c

theorem pairwise_precedes_addresses (t : Tree) : t.addresses.Pairwise Precedes := by
  induction t using Tree.preorder.induct
    (motive_2 := fun ts => ∀ i, (addressesAll i ts).Pairwise Precedes) with
  | case1 r cs ih =>
    refine List.pairwise_cons.2 ⟨?_, ih 0⟩
    intro b mem
    obtain ⟨j, c, a, -, -, rfl⟩ := mem_addressesAll_iff.1 mem
    exact .above [] (List.cons_ne_nil _ a)
  | case2 => exact .nil
  | case3 t ts iht ihts =>
    rename_i i
    refine List.pairwise_append.2 ⟨?_, ihts (i + 1), ?_⟩
    · exact List.pairwise_map.2 (iht.imp fun h => h.cons i)
    · intro a mem b mem'
      obtain ⟨a, -, rfl⟩ := List.mem_map.1 mem
      obtain ⟨j, c, b, -, -, rfl⟩ := mem_addressesAll_iff.1 mem'
      exact .earlier [] (by omega) a b

/-- **A descent lists each node once and in order.** -/
theorem isDescent_located (t : Tree) : t.IsDescent t.located where
  mem_iff _ := mem_located_iff
  nodup := by
    rw [map_address_located]
    exact t.nodup_addresses
  pairwise := by
    have ordered := t.pairwise_precedes_addresses
    rw [← map_address_located] at ordered
    exact List.pairwise_map.1 ordered

theorem walk_eq_map_located (t : Tree) : t.walk = t.located.map (·.subtree) := by
  rw [walk_eq_preorder, map_subtree_located]

end Descent

/-! ### Rounds of a walk -/

/-- A walk under way: the nodes that it has yielded, and the stack of pending ones, on which the
topmost node is the last. -/
@[ext]
structure Walk where
  yielded : List Located
  stack : List Located

namespace Walk

variable {w : Walk} {n : Located} {rest : List Located}

/-- A walk that is about to begin. -/
def start (t : Tree) : Walk := ⟨[], [⟨[], t⟩]⟩

/-- One round: the topmost node is taken off and yielded, and its children are put on in reverse
order. A walk without pending nodes has ended. -/
def round (w : Walk) : Walk :=
  match w.stack.getLast? with
  | none => w
  | some n => ⟨w.yielded ++ [n], w.stack.dropLast ++ n.below.reverse⟩

/-- The pending nodes, the topmost one first. -/
def pending (w : Walk) : List Located := w.stack.reverse

/-- What a walk has yielded, and behind it what its pending nodes have still to yield. -/
def coming (w : Walk) : List Located :=
  w.yielded ++ w.pending.flatMap fun n => n.subtree.located.map (Located.under n.address)

theorem coming_start (t : Tree) : (start t).coming = t.located := by
  have here : t.located.map (Located.under []) = t.located := List.map_id'' (fun _ => rfl) _
  simp [coming, pending, start, here]

theorem stack_eq_nil (h : w.pending = []) : w.stack = [] := List.reverse_eq_nil_iff.1 h

/-- The children of the topmost node are pending in its place, the first child topmost. -/
theorem round_of_pending (h : w.pending = n :: rest) :
    w.round.yielded = w.yielded ++ [n] ∧ w.round.pending = n.below ++ rest := by
  have split : w.stack = rest.reverse ++ [n] := by
    rw [← List.reverse_cons, ← h, pending, List.reverse_reverse]
  simp [round, pending, split]

/-- **A round keeps what is coming.** -/
theorem coming_round (w : Walk) : w.round.coming = w.coming := by
  cases pending : w.pending with
  | nil => rw [round, stack_eq_nil pending, List.getLast?_nil]
  | cons n rest =>
    obtain ⟨yielded, left⟩ := round_of_pending pending
    rw [coming, coming, yielded, left, pending, List.flatMap_append, List.flatMap_cons,
      map_under_located n]
    simp

/-- A round takes one node off the trees that are pending. -/
theorem sizeAll_round (h : w.pending = n :: rest) :
    sizeAll (w.pending.map (·.subtree)) = sizeAll (w.round.pending.map (·.subtree)) + 1 := by
  obtain ⟨-, left⟩ := round_of_pending h
  obtain ⟨a, r, cs⟩ := n
  rw [left, h, List.map_append, Located.map_subtree_below, sizeAll_append, List.map_cons, sizeAll,
    size]
  simp only [children_node]
  omega

/-- **The rounds end** when there have been as many as there were nodes pending, and then all that
was coming has been yielded. -/
theorem iterate_round (w : Walk) :
    round^[sizeAll (w.pending.map (·.subtree))] w = ⟨w.coming, []⟩ := by
  -- Each round lowers the number of pending nodes by one and keeps what is coming.
  generalize count : sizeAll (w.pending.map (·.subtree)) = k
  induction k generalizing w with
  | zero =>
    cases pending : w.pending with
    | nil =>
      refine Walk.ext ?_ (stack_eq_nil pending)
      simp [coming, pending]
    | cons n rest =>
      have := sizeAll_round pending
      omega
  | succ k ih =>
    cases pending : w.pending with
    | nil => simp [pending, sizeAll] at count
    | cons n rest =>
      have fewer := sizeAll_round pending
      rw [Function.iterate_succ_apply, ih w.round (by omega), coming_round]

/-- A round yields what the walk yields next. -/
theorem walkStack_round (w : Walk) :
    w.round.yielded.map (·.subtree) ++ walkStack (w.round.pending.map (·.subtree)) =
      w.yielded.map (·.subtree) ++ walkStack (w.pending.map (·.subtree)) := by
  cases pending : w.pending with
  | nil => rw [round, stack_eq_nil pending, List.getLast?_nil, pending]
  | cons n rest =>
    obtain ⟨yielded, left⟩ := round_of_pending pending
    obtain ⟨a, r, cs⟩ := n
    rw [yielded, left, List.map_append, List.map_append, Located.map_subtree_below, List.map_cons,
      List.map_cons, walkStack, List.append_assoc]
    rfl

/-- After any number of rounds, a walk is what has been yielded and what is yet to be. -/
theorem walk_eq_append_iterate (t : Tree) (k : Nat) :
    t.walk = (round^[k] (start t)).yielded.map (·.subtree) ++
      walkStack ((round^[k] (start t)).pending.map (·.subtree)) := by
  induction k with
  | zero => rfl
  | succ k ih => rw [Function.iterate_succ_apply', walkStack_round, ← ih]

end Walk

/-! ### Indentation -/

/-- A row of blanks. -/
def blanks (k : Nat) : String := String.ofList (List.replicate k ' ')

theorem tab_append_blanks (k : Nat) : tab ++ blanks (4 * k) = blanks (4 * (k + 1)) := by
  rw [blanks, blanks, Nat.mul_succ, Nat.add_comm, List.replicate_add, String.ofList_append]
  rfl

/-- **Each node is indented by its level.** -/
theorem indented_eq (t : Tree) (indentation : String) :
    t.indented indentation = t.located.map fun n =>
      (indentation ++ blanks (4 * n.address.length), n.subtree) := by
  induction t using Tree.preorder.induct
    (motive_2 := fun ts => ∀ i indentation, indentedAll (indentation ++ tab) ts =
      (locatedAll i ts).map fun n => (indentation ++ blanks (4 * n.address.length), n.subtree))
    generalizing indentation with
  | case1 r cs ih =>
    rw [indented, located, List.map_cons, ih 0]
    simp [blanks]
  | case2 => rfl
  | case3 t ts iht ihts =>
    rename_i i indentation
    rw [indentedAll, locatedAll, List.map_append, iht, ihts (i + 1), List.map_map]
    congr 1
    refine List.map_congr_left fun n _ => ?_
    rw [String.append_assoc, tab_append_blanks]
    rfl

/-! ### Agreement -/

/-- **The traversals agree.** A walk, which at any time is what its rounds have yielded and what its
stack has still to yield, ends after as many rounds as there are nodes. It has then visited each
node once and in order, as do the recursive descents, and the one with an indentation adds four
blanks to it for each level. -/
theorem traversals_agree (t : Tree) :
    t.IsDescent t.located ∧
      (∀ k, t.walk = (Walk.round^[k] (Walk.start t)).yielded.map (·.subtree) ++
        walkStack ((Walk.round^[k] (Walk.start t)).pending.map (·.subtree))) ∧
      Walk.round^[t.size] (Walk.start t) = ⟨t.located, []⟩ ∧
      t.walk = t.located.map (·.subtree) ∧
      t.preorder = t.located.map (·.subtree) ∧
      ∀ indentation, t.indented indentation = t.located.map fun n =>
        (indentation ++ blanks (4 * n.address.length), n.subtree) := by
  have ended : Walk.round^[t.size] (Walk.start t) = ⟨t.located, []⟩ := by
    rw [← Walk.coming_start]
    exact Walk.iterate_round (Walk.start t)
  exact ⟨t.isDescent_located, Walk.walk_eq_append_iterate t, ended, t.walk_eq_map_located,
    t.map_subtree_located.symm, t.indented_eq⟩

end Tree

end GrammarNotation
