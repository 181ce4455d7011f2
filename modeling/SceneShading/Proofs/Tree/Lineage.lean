import SceneShading.Proofs.Tree.Growth

/-!
# The way from a node up to the root

`StateTree.lineage` lists the nodes from a node up to the root. In a well-formed tree it has one
node for every level, so that it ends at the root (`WellFormed.ancestor?_eq_root_iff`) and that a
property which passes from parents to children holds of every live node (`WellFormed.induction`).
One node is above another when it is in the lineage of the other, and then the lineage of the upper
one is the end of that of the lower one.

The state sets along a lineage are the stack that drawables at the node are drawn under. Where no
group is on the way, the identities on the stack lead back to the node
(`WellFormed.eq_of_identities`): below one parent a state set has one node.
-/

namespace SceneShading

namespace StateTree

/-- The nodes on the way up from a node. The fuel bounds their number. -/
def ancestry (t : StateTree) : Nat → TreeId → List TreeId
  | 0, _ => []
  | fuel + 1, id => id :: (t.parent? id).elim [] (t.ancestry fuel)

/-- The nodes from a node up to the root, both included. -/
def lineage (t : StateTree) (id : TreeId) : List TreeId :=
  (t.depth? id).elim [] fun d => t.ancestry (d + 1) id

/-- The state sets that are on the way from the root to a node, innermost first. -/
def stack (t : StateTree) (id : TreeId) : List SharedSet := (t.lineage id).filterMap t.set?

/-- The node that so many steps from parent to parent lead to. -/
def ancestor? (t : StateTree) : Nat → TreeId → Option TreeId
  | 0, id => some id
  | steps + 1, id => (t.parent? id).bind (t.ancestor? steps)

/-- Every node on the way up carries a state set, the root apart. -/
def Ungrouped (t : StateTree) (id : TreeId) : Prop :=
  ∀ x ∈ t.lineage id, x ≠ root → (t.set? x).isSome

namespace WellFormed

variable {t : StateTree} {id p : TreeId}

/-! ## Parents and depths -/

/-- The root is live. -/
lemma contains_root (ht : t.WellFormed) : t.contains root := contains_of_depth? ht.depth_root

/-- A node with a parent is not the root. -/
lemma ne_root_of_parent? (ht : t.WellFormed) (hp : t.parent? id = some p) : id ≠ root := by
  rintro rfl
  rw [ht.parent_root] at hp
  cases hp

/-- A node is one level below its parent. -/
lemma depth?_of_parent? (ht : t.WellFormed) (hp : t.parent? id = some p) :
    ∃ d, t.depth? p = some d ∧ t.depth? id = some (d + 1) := by
  obtain ⟨q, d, hq, hd, hdid, -⟩ :=
    ht.exists_parent (contains_of_parent? hp) (ht.ne_root_of_parent? hp)
  obtain rfl : q = p := Option.some.inj (hq.symm.trans hp)
  exact ⟨d, hd, hdid⟩

/-- The parent of a node is live. -/
lemma contains_parent (ht : t.WellFormed) (hp : t.parent? id = some p) : t.contains p := by
  obtain ⟨d, hd, -⟩ := ht.depth?_of_parent? hp
  exact contains_of_depth? hd

/-- A node is the root or hangs below a parent. -/
lemma eq_root_or_exists_parent (ht : t.WellFormed) (hid : t.contains id) :
    id = root ∨ ∃ p, t.parent? id = some p := by
  by_cases hne : id = root
  · exact Or.inl hne
  · obtain ⟨p, d, hp, -⟩ := ht.exists_parent hid hne
    exact Or.inr ⟨p, hp⟩

/-- What passes from parents to children holds of every live node, if it holds of the root. -/
theorem induction (ht : t.WellFormed) {P : TreeId → Prop} (top : P root)
    (down : ∀ {id p}, t.parent? id = some p → P p → P id) (hid : t.contains id) : P id := by
  obtain ⟨d, hd⟩ := exists_depth hid
  induction d generalizing id with
  | zero =>
    obtain rfl | ⟨p, hp⟩ := ht.eq_root_or_exists_parent hid
    · exact top
    · obtain ⟨e, -, he⟩ := ht.depth?_of_parent? hp
      rw [hd] at he
      cases he
  | succ d ih =>
    obtain rfl | ⟨p, hp⟩ := ht.eq_root_or_exists_parent hid
    · exact top
    · obtain ⟨e, hpe, he⟩ := ht.depth?_of_parent? hp
      rw [hd] at he
      obtain rfl := Nat.succ.inj (Option.some.inj he)
      exact down hp (ih (ht.contains_parent hp) hpe)

/-- The root is the only live node at depth zero. -/
lemma eq_root_of_depth?_zero (ht : t.WellFormed) (hd : t.depth? id = some 0) : id = root := by
  obtain rfl | ⟨p, hp⟩ := ht.eq_root_or_exists_parent (contains_of_depth? hd)
  · rfl
  · obtain ⟨e, -, he⟩ := ht.depth?_of_parent? hp
    rw [hd] at he
    cases he

/-- As many steps as a node is deep lead to the root, and no other number of steps does. -/
theorem ancestor?_eq_root_iff (ht : t.WellFormed) {d : Nat} (hd : t.depth? id = some d)
    (steps : Nat) : t.ancestor? steps id = some root ↔ steps = d := by
  induction steps generalizing id d with
  | zero =>
    rw [ancestor?, Option.some_inj]
    constructor
    · rintro rfl
      exact Option.some.inj (ht.depth_root.symm.trans hd)
    · rintro rfl
      exact ht.eq_root_of_depth?_zero hd
  | succ steps ih =>
    rw [ancestor?]
    obtain rfl | ⟨p, hp⟩ := ht.eq_root_or_exists_parent (contains_of_depth? hd)
    · obtain rfl := Option.some.inj (ht.depth_root.symm.trans hd)
      simp [ht.parent_root]
    · obtain ⟨e, hpe, he⟩ := ht.depth?_of_parent? hp
      obtain rfl := Option.some.inj (he.symm.trans hd)
      rw [hp, Option.bind_some, ih hpe, Nat.succ_inj]

/-! ## Lineages -/

/-- Nothing is above the root. -/
lemma lineage_root (ht : t.WellFormed) : t.lineage root = [root] := by
  rw [lineage, ht.depth_root, Option.elim_some, ancestry, ht.parent_root]
  rfl

/-- Above a node are its parent and what is above the parent. -/
lemma lineage_of_parent? (ht : t.WellFormed) (hp : t.parent? id = some p) :
    t.lineage id = id :: t.lineage p := by
  obtain ⟨d, hd, hdid⟩ := ht.depth?_of_parent? hp
  rw [lineage, hdid, Option.elim_some, ancestry, hp, Option.elim_some, lineage, hd,
    Option.elim_some]

/-- A lineage starts with its node. -/
lemma self_mem_lineage (ht : t.WellFormed) (hid : t.contains id) : id ∈ t.lineage id := by
  obtain rfl | ⟨p, hp⟩ := ht.eq_root_or_exists_parent hid
  · rw [ht.lineage_root]
    exact List.mem_singleton_self root
  · rw [ht.lineage_of_parent? hp]
    exact List.mem_cons_self

/-- A lineage has a node for every level. -/
lemma length_lineage (ht : t.WellFormed) {d : Nat} (hd : t.depth? id = some d) :
    (t.lineage id).length = d + 1 := by
  induction d generalizing id with
  | zero =>
    rw [ht.eq_root_of_depth?_zero hd, ht.lineage_root]
    rfl
  | succ d ih =>
    obtain rfl | ⟨p, hp⟩ := ht.eq_root_or_exists_parent (contains_of_depth? hd)
    · cases ht.depth_root.symm.trans hd
    · obtain ⟨e, hpe, he⟩ := ht.depth?_of_parent? hp
      obtain rfl := Nat.succ.inj (Option.some.inj (he.symm.trans hd))
      rw [ht.lineage_of_parent? hp, List.length_cons, ih hpe]

/-- What is above a live node is live, and its lineage is the end of that of the node. -/
lemma lineage_split (ht : t.WellFormed) (hid : t.contains id) :
    ∀ {x : TreeId}, x ∈ t.lineage id →
      t.contains x ∧ ∃ below, t.lineage id = below ++ t.lineage x := by
  refine ht.induction (P := fun y => ∀ {x : TreeId}, x ∈ t.lineage y →
    t.contains x ∧ ∃ below, t.lineage y = below ++ t.lineage x) ?_ ?_ hid
  · intro x hx
    rw [ht.lineage_root, List.mem_singleton] at hx
    subst hx
    exact ⟨ht.contains_root, [], rfl⟩
  · intro id p hp ih x hx
    rw [ht.lineage_of_parent? hp, List.mem_cons] at hx
    rcases hx with rfl | hx
    · exact ⟨contains_of_parent? hp, [], rfl⟩
    · obtain ⟨hlive, below, hbelow⟩ := ih hx
      exact ⟨hlive, id :: below, by rw [ht.lineage_of_parent? hp, hbelow]; rfl⟩

end WellFormed

/-! ## Stacks -/

/-- The sets that are met in climbing from node to node are those of the nodes. -/
lemma filterMap_set_ascent (t : StateTree) (fuel : Nat) (id : TreeId) :
    (t.ascent fuel id).filterMap (·.set) = (t.ancestry fuel id).filterMap t.set? := by
  induction fuel generalizing id with
  | zero => rfl
  | succ fuel ih =>
    rw [ascent, ancestry, parent?, List.filterMap_cons, set?]
    cases hn : t.node? id with
    | none => rfl
    | some n =>
      cases hp : n.parent with
      | none => cases hs : n.set <;> simp [hs, hp]
      | some p => cases hs : n.set <;> simp [hs, hp, ih]

/-- The chain of a node is its stack. -/
theorem chain_eq_stack (t : StateTree) (id : TreeId) : t.chain id = t.stack id := by
  rw [chain, path, stack, lineage, depth?]
  cases t.node? id with
  | none => rfl
  | some n => exact t.filterMap_set_ascent (n.depth + 1) id

namespace WellFormed

variable {t : StateTree} {id p : TreeId}

/-- Nothing is pushed at the root. -/
lemma stack_root (ht : t.WellFormed) : t.stack root = [] := by
  rw [stack, ht.lineage_root, List.filterMap_cons, ht.set_root, List.filterMap_nil]

/-- The stack of a node is its own set on that of the parent. -/
lemma stack_of_parent? (ht : t.WellFormed) (hp : t.parent? id = some p) :
    t.stack id = (t.set? id).toList ++ t.stack p := by
  rw [stack, ht.lineage_of_parent? hp, List.filterMap_cons, stack]
  cases t.set? id <;> rfl

/-- Without groups on the way up, none is on the way up from the parent, and the node has a set. -/
lemma ungrouped_of_parent? (ht : t.WellFormed) (hp : t.parent? id = some p)
    (h : t.Ungrouped id) : t.Ungrouped p ∧ ∃ s, t.set? id = some s := by
  rw [Ungrouped, ht.lineage_of_parent? hp] at h
  refine ⟨fun x hx => h x (List.mem_cons_of_mem id hx), Option.isSome_iff_exists.1 ?_⟩
  exact h id List.mem_cons_self (ht.ne_root_of_parent? hp)

/-- Without groups on the way up, only the root has an empty stack. -/
lemma eq_root_of_stack_eq_nil (ht : t.WellFormed) (hid : t.contains id) (h : t.Ungrouped id)
    (hnil : t.stack id = []) : id = root := by
  obtain rfl | ⟨p, hp⟩ := ht.eq_root_or_exists_parent hid
  · rfl
  · obtain ⟨-, s, hs⟩ := ht.ungrouped_of_parent? hp h
    rw [ht.stack_of_parent? hp, hs] at hnil
    cases hnil

/-- A node is found below its parent by the identity of its state set. -/
lemma child?_of_set? (ht : t.WellFormed) (hp : t.parent? id = some p) {s : SharedSet}
    (hs : t.set? id = some s) : t.child? p (.set s.identity) = some id := by
  obtain ⟨q, d, hq, -, -, hc⟩ :=
    ht.exists_parent (contains_of_parent? hp) (ht.ne_root_of_parent? hp)
  obtain rfl : q = p := Option.some.inj (hq.symm.trans hp)
  rwa [childKey, hs] at hc

/-- Without groups on the way up, a node is known by the identities on its stack. -/
theorem eq_of_identities (ht : t.WellFormed) {a b : TreeId} (ha : t.contains a)
    (hb : t.contains b) (hua : t.Ungrouped a) (hub : t.Ungrouped b)
    (h : (t.stack a).map (·.identity) = (t.stack b).map (·.identity)) : a = b := by
  revert b
  -- The induction goes down to `a`; the key of `a` below its parent is that of `b`.
  refine ht.induction (P := fun y => t.Ungrouped y → ∀ {b : TreeId}, t.contains b →
    t.Ungrouped b → (t.stack y).map (·.identity) = (t.stack b).map (·.identity) → y = b)
    ?_ ?_ ha hua
  · intro _ b hb hub h
    rw [ht.stack_root, List.map_nil, eq_comm, List.map_eq_nil_iff] at h
    exact (ht.eq_root_of_stack_eq_nil hb hub h).symm
  · intro a p hp ih hua b hb hub h
    obtain ⟨hup, s, hs⟩ := ht.ungrouped_of_parent? hp hua
    rw [ht.stack_of_parent? hp, hs, Option.toList_some, List.singleton_append, List.map_cons] at h
    obtain rfl | ⟨q, hq⟩ := ht.eq_root_or_exists_parent hb
    · rw [ht.stack_root] at h
      cases h
    · obtain ⟨huq, r, hr⟩ := ht.ungrouped_of_parent? hq hub
      rw [ht.stack_of_parent? hq, hr, Option.toList_some, List.singleton_append, List.map_cons] at h
      obtain ⟨hidentity, hrest⟩ := List.cons.inj h
      obtain rfl := ih hup (ht.contains_parent hq) huq hrest
      have hchild := ht.child?_of_set? hp hs
      rw [hidentity, ht.child?_of_set? hq hr] at hchild
      exact (Option.some.inj hchild).symm

end WellFormed

/-! ## Reachable trees -/

/-- **The links of a reachable tree agree.** The root is at the top. Every other live node hangs one
level below a live parent and is kept in one place only, which is the table of its parent under its
key, and nothing but live nodes is kept anywhere. So the root is as many steps away as a node is
deep, and without groups on the way up a node is known by the identities on its stack. Cleaning
leaves the nodes of a new tree, and nothing that the tree grows into later has a node under one of
the old numbers again, the root's apart. -/
theorem Reachable.links_agree {t : StateTree} (h : t.Reachable) :
    (t.contains root ∧ t.depth? root = some 0 ∧ t.parent? root = none ∧ t.set? root = none) ∧
    (∀ id, t.contains id → id ≠ root → ∃ p d, t.parent? id = some p ∧ t.depth? p = some d ∧
      t.depth? id = some (d + 1) ∧
      ∀ q key, t.child? q key = some id ↔ q = p ∧ key = t.childKey id) ∧
    (∀ q key id, t.child? q key = some id → t.contains id) ∧
    (∀ id d, t.depth? id = some d → ∀ steps, t.ancestor? steps id = some root ↔ steps = d) ∧
    (∀ a b, t.contains a → t.contains b → t.Ungrouped a → t.Ungrouped b →
      (t.stack a).map (·.identity) = (t.stack b).map (·.identity) → a = b) ∧
    (∀ id, t.clean.node? id = empty.node? id) ∧
    (∀ id, t.Issued id → id ≠ root → ∀ u, GrownFrom t.clean u → u.contains id = false) := by
  have ht : t.WellFormed := h.wellFormed
  refine ⟨⟨ht.contains_root, ht.depth_root, ht.parent_root, ht.set_root⟩, ?_, ?_, ?_, ?_, ?_, ?_⟩
  · intro id hid hne
    obtain ⟨p, d, hp, hd, hdid, hc⟩ := ht.exists_parent hid hne
    refine ⟨p, d, hp, hd, hdid, fun q key => ⟨fun hq => ?_, ?_⟩⟩
    · obtain ⟨hparent, hkey⟩ := ht.of_child hq
      exact ⟨Option.some.inj (hparent.symm.trans hp), hkey.symm⟩
    · rintro ⟨rfl, rfl⟩
      exact hc
  · intro q key id hc
    exact contains_of_parent? (ht.of_child hc).1
  · intro id d hd
    exact ht.ancestor?_eq_root_iff hd
  · intro a b ha hb hua hub
    exact ht.eq_of_identities ha hb hua hub
  · exact ht.node?_clean_eq
  · intro id hid hne u hu
    exact (hu.isDropped (isDropped_clean hid hne) hne).2

/-- Edits that make two branches of state sets, one of which goes on with a group and a set. -/
def branching : List TreeEdit :=
  [.insertSet root ⟨1, {}⟩, .insertSet 1 ⟨2, {}⟩, .insertSet root ⟨4, {}⟩, .insertSet 3 ⟨5, {}⟩,
    .insertGroup 1, .insertSet 5 ⟨2, {}⟩]

/-- A tree with two branches. -/
def twoBranches : StateTree := (empty.grow branching).getD empty

/-- The tree with two branches is reachable. -/
lemma reachable_twoBranches : twoBranches.Reachable :=
  GrownFrom.refl.of_grow (show empty.grow branching = some twoBranches from rfl)

/-- The links agree in the tree with two branches: its deepest node is three steps below the root,
and is gone for good once the tree was cleaned. -/
theorem links_agree_twoBranches : twoBranches.Reachable ∧ twoBranches.depth? 6 = some 3 ∧
    (∀ steps, twoBranches.ancestor? steps 6 = some root ↔ steps = 3) ∧
    ∀ u, GrownFrom twoBranches.clean u → u.contains 6 = false := by
  obtain ⟨-, -, -, hsteps, -, -, hdropped⟩ := Reachable.links_agree reachable_twoBranches
  exact ⟨reachable_twoBranches, rfl, hsteps 6 3 rfl, hdropped 6 (by decide) (by decide)⟩

end StateTree

end SceneShading
