import GrammarNotation.Graph.Basic
import GrammarNotation.Proofs.Tree.Addresses

/-!
# The graph of a tree

A drawing goes down a tree and draws each node when it comes to it, and the edge to a child when it
comes back from it. So the nodes are drawn in order of descent, and the number that a node gets is
its place in this order.

## Main definitions

- `Visit`, `Tree.visits` — what is drawn of a tree, by the addresses of its nodes
- `Tree.itemAt` — what is drawn at a visit
- `Graph.Shows` — the graph is the tree

## Main statements

- `Tree.sketch_eq` — a drawing is what is drawn at the visits
- `Tree.exists_visits_eq` — the visits below a node stand in front of its edge
- `Viewer.draw_shows` — every viewer draws the graph that shows the tree

## Design notes

The counter from which a drawing takes its numbers is dealt with once, in `Tree.sketch_eq`. What is
said of the order of nodes and edges is said of the visits, where there are no numbers.
-/

namespace GrammarNotation

/-! ### Visits -/

/-- One thing that is drawn: the node at an address, or the edge that leads to it. -/
inductive Visit where
  | node (address : List Nat)
  | edge (address : List Nat)

namespace Visit

/-- The visit of a subtree as one of the tree in which it has the given address. -/
def under (a : List Nat) : Visit → Visit
  | .node b => .node (a ++ b)
  | .edge b => .edge (a ++ b)

/-- The address of a node that is drawn. -/
def node? : Visit → Option (List Nat)
  | .node a => some a
  | .edge _ => none

/-- The address of the node to which an edge is drawn. -/
def edge? : Visit → Option (List Nat)
  | .node _ => none
  | .edge a => some a

theorem under_under (a b : List Nat) (v : Visit) : (v.under b).under a = v.under (a ++ b) := by
  cases v <;> simp [under]

end Visit

namespace Tree

mutual

/-- What is drawn of a tree, in order. -/
def visits : Tree → List Visit
  | .node _ cs => .node [] :: visitsAll 0 cs

/-- What is drawn of some children in a row, the first of which has the number `i`, and the edges
that lead to them. -/
def visitsAll (i : Nat) : List Tree → List Visit
  | [] => []
  | t :: ts => t.visits.map (Visit.under [i]) ++ .edge [i] :: visitsAll (i + 1) ts

end

/-- The addresses of the nodes to which edges are drawn, in order. -/
def edgeAddresses (t : Tree) : List (List Nat) :=
  t.visits.filterMap Visit.edge?

/-- The same for some children in a row. -/
def edgeAddressesAll (i : Nat) (ts : List Tree) : List (List Nat) :=
  (visitsAll i ts).filterMap Visit.edge?

section Visits

variable {t s : Tree} {ts : List Tree} {i j : Nat} {a b : List Nat}

theorem filterMap_node?_under (vs : List Visit) :
    (vs.map (Visit.under a)).filterMap Visit.node? = (vs.filterMap Visit.node?).map (a ++ ·) := by
  rw [List.filterMap_map, List.map_filterMap]
  congr 1
  funext v
  cases v <;> rfl

theorem filterMap_edge?_under (vs : List Visit) :
    (vs.map (Visit.under a)).filterMap Visit.edge? = (vs.filterMap Visit.edge?).map (a ++ ·) := by
  rw [List.filterMap_map, List.map_filterMap]
  congr 1
  funext v
  cases v <;> rfl

/-- The nodes are drawn in order of descent. -/
theorem filterMap_node?_visits (t : Tree) : t.visits.filterMap Visit.node? = t.addresses := by
  induction t using Tree.preorder.induct
    (motive_2 := fun ts => ∀ i, (visitsAll i ts).filterMap Visit.node? = addressesAll i ts) with
  | case1 r cs ih => rw [visits, addresses, List.filterMap_cons, ih]; rfl
  | case2 => rfl
  | case3 t ts iht ihts =>
    rename_i i
    rw [visitsAll, addressesAll, List.filterMap_append, filterMap_node?_under, iht,
      List.filterMap_cons, ihts]
    rfl

theorem edgeAddresses_node (r : Role) (cs : List Tree) :
    (node r cs).edgeAddresses = edgeAddressesAll 0 cs := rfl

theorem edgeAddressesAll_cons :
    edgeAddressesAll i (t :: ts) =
      t.edgeAddresses.map (i :: ·) ++ [i] :: edgeAddressesAll (i + 1) ts := by
  rw [edgeAddressesAll, visitsAll, List.filterMap_append, filterMap_edge?_under]
  rfl

/-- There is an edge to each node but the topmost one. -/
theorem perm_edgeAddresses (t : Tree) : ([] :: t.edgeAddresses).Perm t.addresses := by
  induction t using Tree.preorder.induct
    (motive_2 := fun ts => ∀ i, (edgeAddressesAll i ts).Perm (addressesAll i ts)) with
  | case1 r cs ih => exact (ih 0).cons []
  | case2 => exact .refl []
  | case3 t ts iht ihts =>
    rename_i i
    rw [edgeAddressesAll_cons, addressesAll]
    have first : ([i] :: t.edgeAddresses.map (i :: ·)).Perm (t.addresses.map (i :: ·)) :=
      iht.map (i :: ·)
    exact List.perm_middle.trans (first.append (ihts (i + 1)))

theorem mem_edgeAddresses_iff : a ∈ t.edgeAddresses ↔ a ∈ t.addresses ∧ a ≠ [] := by
  have fresh : [] ∉ t.edgeAddresses :=
    (List.nodup_cons.1 (t.perm_edgeAddresses.nodup_iff.2 t.nodup_addresses)).1
  rw [← t.perm_edgeAddresses.mem_iff, List.mem_cons]
  constructor
  · intro mem
    exact ⟨.inr mem, fun eq => fresh (eq ▸ mem)⟩
  · rintro ⟨rfl | mem, ne⟩
    · exact absurd rfl ne
    · exact mem

theorem node_mem_visits_iff : .node a ∈ t.visits ↔ a ∈ t.addresses := by
  rw [← filterMap_node?_visits, List.mem_filterMap]
  constructor
  · intro mem
    exact ⟨_, mem, rfl⟩
  · rintro ⟨_ | _, mem, eq⟩
    · exact Option.some.inj eq ▸ mem
    · cases eq

theorem edge_mem_visits_iff : .edge a ∈ t.visits ↔ a ∈ t.addresses ∧ a ≠ [] := by
  rw [← mem_edgeAddresses_iff, edgeAddresses, List.mem_filterMap]
  constructor
  · intro mem
    exact ⟨_, mem, rfl⟩
  · rintro ⟨_ | _, mem, eq⟩
    · cases eq
    · exact Option.some.inj eq ▸ mem

/-! ### The order of the visits -/

theorem exists_visitsAll_eq (child : ts[j]? = some t) :
    ∃ before after, visitsAll i ts =
      before ++ (t.visits.map (Visit.under [i + j]) ++ .edge [i + j] :: after) := by
  induction ts generalizing i j with
  | nil => cases child
  | cons u ts ih =>
    cases j with
    | zero =>
      obtain rfl := Option.some.inj child
      exact ⟨[], visitsAll (i + 1) ts, rfl⟩
    | succ j =>
      obtain ⟨before, after, eq⟩ := ih child (i := i + 1)
      refine ⟨u.visits.map (Visit.under [i]) ++ .edge [i] :: before, after, ?_⟩
      rw [visitsAll, eq, Nat.add_assoc, Nat.add_comm 1 j, List.append_assoc, List.cons_append]

/-- **The visits below a node stand in front of its edge.** -/
theorem exists_visits_eq (h : t.get? a = some s) (below : a ≠ []) :
    ∃ before after, t.visits = before ++ (s.visits.map (Visit.under a) ++ .edge a :: after) := by
  induction a generalizing t with
  | nil => exact absurd rfl below
  | cons j a ih =>
    obtain ⟨c, child, found⟩ := get?_cons_eq_some_iff.1 h
    obtain ⟨before, after, eq⟩ : ∃ before after, t.visits =
        before ++ (c.visits.map (Visit.under [j]) ++ .edge [j] :: after) := by
      obtain ⟨r, cs⟩ := t
      obtain ⟨before, after, eq⟩ := exists_visitsAll_eq (i := 0) child
      rw [Nat.zero_add] at eq
      exact ⟨.node [] :: before, after, congrArg (_ :: ·) eq⟩
    cases a with
    | nil =>
      obtain rfl := Option.some.inj found
      exact ⟨before, after, eq⟩
    | cons k a =>
      -- The visits in question are among those of the child, and these stand together.
      obtain ⟨before', after', inner⟩ := ih found (List.cons_ne_nil k a)
      refine ⟨before ++ before'.map (Visit.under [j]),
        after'.map (Visit.under [j]) ++ .edge [j] :: after, ?_⟩
      have nested : (s.visits.map (Visit.under (k :: a))).map (Visit.under [j]) =
          s.visits.map (Visit.under (j :: k :: a)) := by
        rw [List.map_map]
        apply List.map_congr_left
        intro v _
        exact v.under_under [j] (k :: a)
      rw [eq, inner, List.map_append, List.map_append, List.map_cons, nested]
      simp [Visit.under]

/-! ### The edges to the children of a node -/

/-- Below a child every edge starts at an address that begins with the number of the child. -/
theorem filter_dropLast_map_cons (t : Tree) (i : Nat) (c : List Nat) :
    (t.edgeAddresses.map (i :: ·)).filter (·.dropLast = c) =
      (t.edgeAddresses.filter (i :: ·.dropLast = c)).map (i :: ·) := by
  rw [List.filter_map]
  congr 1
  apply List.filter_congr
  intro a mem
  have ne := (mem_edgeAddresses_iff.1 mem).2
  simp [List.dropLast_cons_of_ne_nil ne]

theorem filter_edgeAddressesAll_nil (i : Nat) (ts : List Tree) :
    (edgeAddressesAll i ts).filter (·.dropLast = []) =
      (List.range' i ts.length).map fun k => [k] := by
  induction ts generalizing i with
  | nil => rfl
  | cons t ts ih =>
    have deeper : (t.edgeAddresses.map (i :: ·)).filter (·.dropLast = []) = [] := by
      rw [filter_dropLast_map_cons]
      simp
    rw [edgeAddressesAll_cons, List.filter_append, deeper, List.nil_append,
      List.filter_cons_of_pos rfl, ih, List.length_cons, List.range'_succ, List.map_cons]

/-- The edges below one child are not among those below later children. -/
theorem filter_edgeAddressesAll_of_lt (below : i < j) :
    (edgeAddressesAll j ts).filter (·.dropLast = i :: b) = [] := by
  induction ts generalizing j with
  | nil => rfl
  | cons t ts ih =>
    have apart : (t.edgeAddresses.map (j :: ·)).filter (·.dropLast = i :: b) = [] := by
      rw [filter_dropLast_map_cons]
      simp [Nat.ne_of_gt below]
    rw [edgeAddressesAll_cons, List.filter_append, apart, List.nil_append,
      List.filter_cons_of_neg (by simp), ih (Nat.lt_succ_of_lt below)]

theorem filter_edgeAddressesAll_cons (child : ts[j]? = some t) :
    (edgeAddressesAll i ts).filter (·.dropLast = (i + j) :: b) =
      (t.edgeAddresses.filter (·.dropLast = b)).map ((i + j) :: ·) := by
  induction ts generalizing i j with
  | nil => cases child
  | cons u ts ih =>
    rw [edgeAddressesAll_cons, List.filter_append, filter_dropLast_map_cons,
      List.filter_cons_of_neg (by simp)]
    cases j with
    | zero =>
      obtain rfl := Option.some.inj child
      rw [Nat.add_zero, filter_edgeAddressesAll_of_lt (Nat.lt_succ_self i), List.append_nil]
      simp
    | succ j =>
      have later := ih child (i := i + 1)
      have same : i + 1 + j = i + (j + 1) := by omega
      rw [same] at later
      rw [later]
      simp

/-- **The edges to the children of a node are drawn in their order.** -/
theorem filter_edgeAddresses (h : t.get? b = some s) :
    t.edgeAddresses.filter (·.dropLast = b) =
      (List.range s.children.length).map fun k => b ++ [k] := by
  induction b generalizing t with
  | nil =>
    obtain rfl := Option.some.inj h
    obtain ⟨r, cs⟩ := t
    rw [edgeAddresses_node, filter_edgeAddressesAll_nil, List.range_eq_range']
    rfl
  | cons j b ih =>
    obtain ⟨r, cs⟩ := t
    obtain ⟨c, child, found⟩ := get?_cons_eq_some_iff.1 h
    rw [children_node] at child
    have inner := filter_edgeAddressesAll_cons (i := 0) (b := b) child
    rw [Nat.zero_add] at inner
    rw [edgeAddresses_node, inner, ih found, List.map_map]
    rfl

end Visits

/-! ### Items -/

/-- What the node at an address stands for. -/
def roleAt (t : Tree) (a : List Nat) : Role :=
  (t.get? a).elim .blank role

/-- What is drawn at a visit, if the nodes are numbered from `first`. -/
def itemAt (t : Tree) (first : Nat) : Visit → GraphItem
  | .node a => .node (first + t.number a) (t.roleAt a).description (t.roleAt a).shape?
  | .edge a => .edge (first + t.number a.dropLast) (first + t.number a)

theorem roleAt_of_get? {t s : Tree} {a : List Nat} (h : t.get? a = some s) :
    t.roleAt a = s.role := by
  rw [roleAt, h]
  rfl

/-- What is drawn below a child is numbered behind the node and the children before. -/
theorem itemAt_under {t c : Tree} {i first : Nat} (child : t.children[i]? = some c) {v : Visit}
    (mem : v ∈ c.visits) :
    t.itemAt first (v.under [i]) =
      c.itemAt (first + 1 + sizeAll (t.children.take i)) v := by
  cases v with
  | node a =>
    have number := number_cons child (node_mem_visits_iff.1 mem)
    have role : t.roleAt (i :: a) = c.roleAt a := by rw [roleAt, get?_cons child, roleAt]
    rw [Visit.under, itemAt, itemAt, List.singleton_append, number, role]
    congr 1
    omega
  | edge a =>
    obtain ⟨inner, ne⟩ := edge_mem_visits_iff.1 mem
    have number := number_cons child inner
    have above := number_cons child (dropLast_mem_addresses inner)
    rw [Visit.under, itemAt, itemAt, List.singleton_append, List.dropLast_cons_of_ne_nil ne, number,
      above]
    congr 1 <;> omega

/-- **A drawing is what is drawn at the visits.** -/
theorem sketch_eq (first : Nat) (t : Tree) :
    (t.sketch first).1 = t.visits.map (t.itemAt first) := by
  -- For lists it is about the children of the node `first` behind those in `front`, and these have
  -- taken the numbers in between.
  induction t using Tree.preorder.induct
    (motive_2 := fun ts => ∀ r front first,
      (sketchAll first (first + 1 + sizeAll front) ts).1 =
        (visitsAll front.length ts).map (itemAt (.node r (front ++ ts)) first))
    generalizing first with
  | case1 r cs ih =>
    have below := ih r [] first
    have top : itemAt (.node r cs) first (.node []) = .node first r.description r.shape? := by
      simp [itemAt, roleAt]
    rw [sketch, visits, List.map_cons, top]
    exact congrArg (_ :: ·) below
  | case2 => rfl
  | case3 t ts iht ihts =>
    rename_i r front first
    have child : (node r (front ++ t :: ts)).children[front.length]? = some t := by simp
    have start : (node r (front ++ t :: ts)).children.take front.length = front := by simp
    have inner : (t.visits.map (Visit.under [front.length])).map
        (itemAt (.node r (front ++ t :: ts)) first) =
          t.visits.map (t.itemAt (first + 1 + sizeAll front)) := by
      rw [List.map_map]
      apply List.map_congr_left
      intro v mem
      have item : itemAt _ first _ = _ := itemAt_under child mem
      rwa [start] at item
    have edge : itemAt (.node r (front ++ t :: ts)) first (.edge [front.length]) =
        .edge first (first + 1 + sizeAll front) := by
      have number := number_cons child (nil_mem_addresses t)
      rw [start, number_nil] at number
      rw [itemAt, number]
      simp
      omega
    have others := ihts r (front ++ [t]) first
    have next : first + 1 + sizeAll (front ++ [t]) = first + 1 + sizeAll front + t.size := by
      simp [sizeAll_append, sizeAll, Nat.add_assoc]
    rw [next, List.append_assoc, List.singleton_append, List.length_append, List.length_singleton]
      at others
    rw [visitsAll, List.map_append, List.map_cons, inner, edge, ← iht, ← others, ← sketch_snd]
    rfl

end Tree

/-! ### Graphs -/

namespace Graph

/-- The nodes of a graph in order, with their labels and shapes. -/
def nodes (g : Graph) : List (Nat × String × Option Shape) :=
  g.items.filterMap fun
    | .node id label shape => some (id, label, shape)
    | .edge _ _ => none

/-- **The graph is the tree.** The nodes are those that a stack yields, numbered from 0, each with
the label and the shape of what it stands for; the number of a node is its place among them. To each
node but the topmost one leads one edge, from the node above it, which has a smaller number. The
edges from a node lead to its children in their order, and an edge is drawn after all that is below
it. -/
structure Shows (g : Graph) (t : Tree) : Prop where
  length_nodes : g.nodes.length = t.size
  nodes_eq : g.nodes = t.walk.mapIdx fun j s => (j, s.role.description, s.role.shape?)
  walk_eq : t.walk.map some = t.addresses.map t.get?
  length_edges : g.edges.length + 1 = t.size
  perm_edges : g.edges.Perm
    ((t.addresses.filter (· ≠ [])).map fun a => (t.number a.dropLast, t.number a))
  lt_of_mem : ∀ e ∈ g.edges, e.1 < e.2
  targets_eq : ∀ a s, t.get? a = some s →
    (g.edges.filter (·.1 = t.number a)).map (·.2) =
      (List.range s.children.length).map fun i => t.number (a ++ [i])
  exists_items_eq : ∀ a ∈ t.addresses, a ≠ [] → ∃ before after,
    g.items = before ++ .edge (t.number a.dropLast) (t.number a) :: after ∧
      ∀ b s, t.get? (a ++ b) = some s →
        .node (t.number (a ++ b)) s.role.description s.role.shape? ∈ before ∧
          (b ≠ [] → .edge (t.number (a ++ b).dropLast) (t.number (a ++ b)) ∈ before)

variable {t : Tree} {g : Graph}

/-- The nodes of a drawing, by their addresses. -/
theorem nodes_of_items (h : g.items = (t.sketch 0).1) :
    g.nodes = t.addresses.map fun a =>
      (t.number a, (t.roleAt a).description, (t.roleAt a).shape?) := by
  rw [nodes, h, Tree.sketch_eq, List.filterMap_map, ← Tree.filterMap_node?_visits,
    List.map_filterMap]
  congr 1
  funext v
  cases v <;> simp [Tree.itemAt, Visit.node?]

/-- The edges of a drawing, by the addresses of the nodes to which they lead. -/
theorem edges_of_items (h : g.items = (t.sketch 0).1) :
    g.edges = t.edgeAddresses.map fun a => (t.number a.dropLast, t.number a) := by
  rw [edges, h, Tree.sketch_eq, List.filterMap_map, Tree.edgeAddresses, List.map_filterMap]
  congr 1
  funext v
  cases v <;> simp [Tree.itemAt, Visit.edge?]

/-- The nodes are numbered in the order in which a stack yields them. -/
theorem nodes_eq_mapIdx (h : g.items = (t.sketch 0).1) :
    g.nodes = t.walk.mapIdx fun j s => (j, s.role.description, s.role.shape?) := by
  rw [nodes_of_items h]
  apply List.ext_getElem?
  intro j
  rw [List.getElem?_map, List.getElem?_mapIdx]
  cases place : t.addresses[j]? with
  | none =>
    have short : t.walk.length ≤ j := by
      rw [Tree.walk_eq_preorder, Tree.length_preorder, ← Tree.length_addresses]
      exact List.getElem?_eq_none_iff.1 place
    rw [List.getElem?_eq_none short]
    rfl
  | some a =>
    obtain ⟨s, found⟩ := Tree.mem_addresses_iff.1 (List.mem_of_getElem? place)
    have number := Tree.number_eq_of_getElem? place
    have walk := Tree.getElem?_walk_number found
    rw [number] at walk
    rw [walk, Option.map_some, Option.map_some, number, Tree.roleAt_of_get? found]

/-- To each node but the topmost one leads one edge. -/
theorem perm_edges_of_items (h : g.items = (t.sketch 0).1) :
    g.edges.Perm
      ((t.addresses.filter (· ≠ [])).map fun a => (t.number a.dropLast, t.number a)) := by
  have below : t.edgeAddresses.filter (· ≠ []) = t.edgeAddresses := by
    rw [List.filter_eq_self]
    intro a mem
    exact decide_eq_true (Tree.mem_edgeAddresses_iff.1 mem).2
  have perm := t.perm_edgeAddresses.filter (· ≠ [])
  rw [List.filter_cons_of_neg (by simp), below] at perm
  rw [edges_of_items h]
  exact perm.map _

/-- The edges from a node lead to its children in their order. -/
theorem targets_of_items (h : g.items = (t.sketch 0).1) {a : List Nat} {s : Tree}
    (found : t.get? a = some s) :
    (g.edges.filter (·.1 = t.number a)).map (·.2) =
      (List.range s.children.length).map fun i => t.number (a ++ [i]) := by
  have source : t.edgeAddresses.filter (fun b => t.number b.dropLast = t.number a) =
      t.edgeAddresses.filter (·.dropLast = a) := by
    apply List.filter_congr
    intro b mem
    have above := Tree.dropLast_mem_addresses (Tree.mem_edgeAddresses_iff.1 mem).1
    exact decide_eq_decide.2 (Tree.number_inj above)
  have children := source.trans (Tree.filter_edgeAddresses found)
  rw [edges_of_items h, List.filter_map, List.map_map]
  exact (congrArg (List.map t.number) children).trans List.map_map

/-- An edge is drawn after all that is below it. -/
theorem exists_items_eq_of_items (h : g.items = (t.sketch 0).1) {a : List Nat}
    (mem : a ∈ t.addresses) (ne : a ≠ []) :
    ∃ before after, g.items = before ++ .edge (t.number a.dropLast) (t.number a) :: after ∧
      ∀ b s, t.get? (a ++ b) = some s →
        .node (t.number (a ++ b)) s.role.description s.role.shape? ∈ before ∧
          (b ≠ [] → .edge (t.number (a ++ b).dropLast) (t.number (a ++ b)) ∈ before) := by
  obtain ⟨s, found⟩ := Tree.mem_addresses_iff.1 mem
  obtain ⟨before, after, eq⟩ := Tree.exists_visits_eq found ne
  have drawn : ∀ v ∈ s.visits, t.itemAt 0 (v.under a) ∈
      (before ++ s.visits.map (Visit.under a)).map (t.itemAt 0) := by
    intro v visited
    exact List.mem_map_of_mem (List.mem_append_right _ (List.mem_map_of_mem visited))
  refine ⟨(before ++ s.visits.map (Visit.under a)).map (t.itemAt 0), after.map (t.itemAt 0),
    ?_, ?_⟩
  · rw [h, Tree.sketch_eq, eq]
    simp [Tree.itemAt]
  · intro b u below
    have inner : b ∈ s.addresses :=
      Tree.mem_addresses_iff.2 ⟨u, (Tree.get?_append found b).symm.trans below⟩
    constructor
    · have item := drawn _ (Tree.node_mem_visits_iff.2 inner)
      rwa [Visit.under, Tree.itemAt, Tree.roleAt_of_get? below, Nat.zero_add] at item
    · intro ne'
      have item := drawn _ (Tree.edge_mem_visits_iff.2 ⟨inner, ne'⟩)
      rwa [Visit.under, Tree.itemAt, Nat.zero_add, Nat.zero_add] at item

/-- **A drawing of a tree shows it.** -/
theorem shows_of_items (h : g.items = (t.sketch 0).1) : g.Shows t where
  length_nodes := by rw [nodes_of_items h, List.length_map, Tree.length_addresses]
  nodes_eq := nodes_eq_mapIdx h
  walk_eq := by rw [Tree.map_get?_addresses, Tree.walk_eq_preorder]
  length_edges := by
    rw [edges_of_items h, List.length_map, ← Tree.length_addresses]
    exact t.perm_edgeAddresses.length_eq
  perm_edges := perm_edges_of_items h
  lt_of_mem := by
    rw [edges_of_items h, List.forall_mem_map]
    intro a mem
    obtain ⟨inner, ne⟩ := Tree.mem_edgeAddresses_iff.1 mem
    exact Tree.number_dropLast_lt inner ne
  targets_eq := fun _ _ found => targets_of_items h found
  exists_items_eq := fun _ mem ne => exists_items_eq_of_items h mem ne

end Graph

/-- **Every viewer draws the graph that shows the tree**, whatever it has drawn before, and has
counted its nodes afterwards. -/
theorem Viewer.draw_shows (v : Viewer) {t : Tree} (ht : t.isDescribed) :
    ∃ g : Graph, v.draw t = (some g, { v with count := t.size }) ∧ g.Shows t := by
  refine ⟨⟨(t.sketch 0).1, v.fontname, v.fontsize⟩, ?_, Graph.shows_of_items rfl⟩
  have count : (t.sketch 0).2 = t.size := by rw [Tree.sketch_snd, Nat.zero_add]
  rw [Viewer.draw, if_pos ht, ← count]

/-- A viewer that has stopped at a node without a description draws a tree from 0 again. -/
theorem Viewer.draw_shows_afterStop :
    let stopped := (Viewer.draw {} (.node .root [.leaf (.grammar "g"), .leaf .blank])).2
    let t : Tree := .node .root
      [.node (.production 1) [.leaf (.head "S"), .leaf (.terminal "a")], .leaf (.grammar "g")]
    stopped.count = 2 ∧ t.isDescribed ∧
      ∃ g : Graph, stopped.draw t = (some g, { stopped with count := 5 }) ∧ g.Shows t ∧
        g.edges = [(1, 2), (1, 3), (0, 1), (0, 4)] := by
  intro stopped t
  have described : t.isDescribed := by decide
  obtain ⟨g, drawn, shows_⟩ := Viewer.draw_shows stopped described
  have edges : (stopped.draw t).1.map Graph.edges = some [(1, 2), (1, 3), (0, 1), (0, 4)] := by
    decide
  rw [drawn] at edges
  exact ⟨by decide, described, g, drawn, shows_, Option.some.inj edges⟩

end GrammarNotation
