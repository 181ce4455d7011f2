import Mathlib.Tactic
import SceneShading.State.Tree

/-!
# How state trees grow

A state tree grows from its bare root by four edits: a state set or a group is asked for below a
node, a leaf is recorded at a node, and the tree is cleaned. An edit at a node that was dropped, or
never issued, has no result.

What the edits keep is `StateTree.WellFormed`: depths, parents and children fit together. It speaks
of a tree through four views of its nodes (`parent?`, `set?`, `depth?` and `child?`), and each edit
is described once by what it does to the views. `WellFormed.edit` is the step and
`Reachable.wellFormed` the run. Numbers are never given away twice: a node that was dropped stays
dropped, whatever the tree grows into (`GrownFrom.isDropped`).
-/

namespace SceneShading

/-- A request that changes a state tree. -/
inductive TreeEdit where
  /-- The node of a state set below a parent. -/
  | insertSet (parent : TreeId) (set : SharedSet)
  /-- A new group below a parent. -/
  | insertGroup (parent : TreeId)
  /-- A drawable recorded at a node. -/
  | addLeaf (id : TreeId) (leaf : RenderLeaf)
  /-- All nodes but the root are dropped. -/
  | clean

namespace StateTree

/-- The tree after an edit, if the node that the edit names is live. -/
def edit? (t : StateTree) : TreeEdit → Option StateTree
  | .insertSet parent set => (t.insertSet parent set).map (·.2)
  | .insertGroup parent => (t.insertGroup parent).map (·.2)
  | .addLeaf id leaf => t.addLeaf id leaf
  | .clean => some t.clean

/-- The trees that edits make of a tree. -/
inductive GrownFrom (t : StateTree) : StateTree → Prop where
  | refl : GrownFrom t t
  | edit {u v : StateTree} (e : TreeEdit) : GrownFrom t u → u.edit? e = some v → GrownFrom t v

/-- The trees that edits make of the bare root. -/
def Reachable (t : StateTree) : Prop := GrownFrom .empty t

/-- The tree after several edits. -/
def grow (t : StateTree) (edits : List TreeEdit) : Option StateTree := edits.foldlM edit? t

/-- Several edits, one after another, make a tree out of a tree. -/
lemma GrownFrom.of_grow {t u v : StateTree} {edits : List TreeEdit} (h : GrownFrom t u)
    (hv : u.grow edits = some v) : GrownFrom t v := by
  induction edits generalizing u with
  | nil =>
    obtain rfl := Option.some.inj hv
    exact h
  | cons e edits ih =>
    obtain ⟨w, hw, hv⟩ := Option.bind_eq_some_iff.1 hv
    exact ih (h.edit e hw) hv

/-! ## Views -/

/-- The parent of a node. -/
def parent? (t : StateTree) (id : TreeId) : Option TreeId := (t.node? id).bind (·.parent)

/-- The state set that a node carries. -/
def set? (t : StateTree) (id : TreeId) : Option SharedSet := (t.node? id).bind (·.set)

/-- The depth of a node. -/
def depth? (t : StateTree) (id : TreeId) : Option Nat := (t.node? id).map (·.depth)

/-- The child that a node keeps under a key. -/
def child? (t : StateTree) (id : TreeId) (key : ChildKey) : Option TreeId :=
  (t.node? id).bind (·.children.find? key)

/-- The key that a node should be kept under: the identity of its state set, or its own number. -/
def childKey (t : StateTree) (id : TreeId) : ChildKey :=
  (t.set? id).elim (.group id) fun s => .set s.identity

/-- The number was given to a node, be it live or dropped. -/
def Issued (t : StateTree) (id : TreeId) : Prop := id < t.nodes.size

instance (t : StateTree) (id : TreeId) : Decidable (t.Issued id) :=
  inferInstanceAs (Decidable (id < t.nodes.size))

/-- The number was given to a node that is not live any more. -/
def IsDropped (t : StateTree) (id : TreeId) : Prop := t.Issued id ∧ t.contains id = false

/-- A node is live exactly when it has a depth. -/
lemma contains_eq_isSome_depth? (t : StateTree) (id : TreeId) :
    t.contains id = (t.depth? id).isSome := by
  rw [contains, depth?, Option.isSome_map]

/-- A live node has a depth. -/
lemma exists_depth {t : StateTree} {id : TreeId} (h : t.contains id) :
    ∃ d, t.depth? id = some d := by
  rw [contains_eq_isSome_depth?] at h
  exact Option.isSome_iff_exists.1 h

/-- A node with a depth is live. -/
lemma contains_of_depth? {t : StateTree} {id : TreeId} {d : Nat} (h : t.depth? id = some d) :
    t.contains id := by
  rw [contains_eq_isSome_depth?, h]
  rfl

/-- A node with a parent is live. -/
lemma contains_of_parent? {t : StateTree} {id p : TreeId} (h : t.parent? id = some p) :
    t.contains id := by
  obtain ⟨n, hn, -⟩ := Option.bind_eq_some_iff.1 h
  rw [contains, hn]
  rfl

/-- A live node was issued. -/
lemma issued_of_contains {t : StateTree} {id : TreeId} (h : t.contains id) : t.Issued id := by
  by_contra hle
  rw [contains, node?, Array.getElem?_eq_none (Nat.le_of_not_lt hle)] at h
  exact Bool.false_ne_true h

/-- A live node is not the next one. -/
lemma ne_size_of_contains {t : StateTree} {x : TreeId} (h : t.contains x) : x ≠ t.nodes.size :=
  (show x < t.nodes.size from issued_of_contains h).ne

/-- The next number has no node yet. -/
lemma node?_size (t : StateTree) : t.node? t.nodes.size = none := by
  rw [node?, Array.getElem?_eq_none le_rfl]
  rfl

/-! ## What the edits do to the nodes -/

/-- Changing a node leaves the other nodes alone. -/
lemma node?_modify (t : StateTree) (id x : TreeId) (f : TreeNode → TreeNode) :
    (t.modify id f).node? x = if x = id then (t.node? x).map f else t.node? x := by
  simp only [modify, node?, Array.getElem?_modify, eq_comm (a := id)]
  split
  · cases t.nodes[x]? with
    | none => rfl
    | some slot => cases slot <;> rfl
  · rfl

/-- A new node has the next number; its parent keeps it as a child, and the other nodes stay. -/
lemma node?_addChild {t : StateTree} {parent : TreeId} (hp : t.contains parent) (depth : Nat)
    (set : Option SharedSet) (key : ChildKey) (x : TreeId) :
    (t.addChild parent depth set key).2.node? x =
      if x = t.nodes.size then some { parent := some parent, set, depth }
      else if x = parent then
        (t.node? x).map fun n => { n with children := n.children.insert key t.nodes.size }
      else t.node? x := by
  have hlt : parent < t.nodes.size := issued_of_contains hp
  have hgrown : ∀ n : TreeNode, StateTree.node? ⟨t.nodes.push (some n)⟩ x =
      if x = t.nodes.size then some n else t.node? x := by
    intro n
    simp only [node?, Array.getElem?_push]
    split <;> rfl
  simp only [addChild, node?_modify, hgrown]
  by_cases hx : x = t.nodes.size
  · have hne : t.nodes.size ≠ parent := hlt.ne'
    simp [hx, hne]
  · simp [hx]

/-- Cleaning keeps the root, without its children and leaves, and no other node. -/
lemma node?_clean (t : StateTree) (x : TreeId) :
    t.clean.node? x = if x = root then (t.node? x).map (·.cleared) else none := by
  rw [clean, node?, Array.getElem?_mapIdx, node?]
  cases t.nodes[x]? with
  | none => exact (ite_self none).symm
  | some slot =>
    rw [Option.map_some, Option.join_some, Option.join_some]

/-- Asking for the node of a state set finds the one that is there, or makes one. -/
lemma insertSet_cases {t u : StateTree} {parent id : TreeId} {s : SharedSet}
    (h : t.insertSet parent s = some (id, u)) :
    (t.child? parent (.set s.identity) = some id ∧ u = t) ∨
      ∃ d, t.depth? parent = some d ∧ t.child? parent (.set s.identity) = none ∧
        t.addChild parent (d + 1) (some s) (.set s.identity) = (id, u) := by
  obtain ⟨node, hnode, hu⟩ := Option.bind_eq_some_iff.1 h
  rw [child?, depth?, hnode, Option.bind_some, Option.map_some]
  cases hfind : node.children.find? (.set s.identity) with
  | some child =>
    rw [hfind] at hu
    obtain ⟨rfl, rfl⟩ := Prod.mk.inj (Option.some.inj hu)
    exact Or.inl ⟨rfl, rfl⟩
  | none =>
    rw [hfind] at hu
    exact Or.inr ⟨node.depth, rfl, rfl, Option.some.inj hu⟩

/-- Asking for a group makes one. -/
lemma insertGroup_cases {t u : StateTree} {parent id : TreeId}
    (h : t.insertGroup parent = some (id, u)) :
    ∃ d, t.depth? parent = some d ∧
      t.addChild parent (d + 1) none (.group t.nodes.size) = (id, u) := by
  obtain ⟨node, hnode, hu⟩ := Option.bind_eq_some_iff.1 h
  exact ⟨node.depth, by rw [depth?, hnode]; rfl, Option.some.inj hu⟩

/-! ## What the edits do to the views -/

section AddChild

variable {t : StateTree} {parent : TreeId} (hp : t.contains parent) (depth : Nat)
  (set : Option SharedSet) (key : ChildKey) (x : TreeId)

include hp

/-- The new node has the parent it was made for. -/
lemma parent?_addChild : (t.addChild parent depth set key).2.parent? x =
    if x = t.nodes.size then some parent else t.parent? x := by
  rw [parent?, parent?, node?_addChild hp]
  split_ifs <;> cases t.node? x <;> rfl

/-- The new node carries the state set it was made for. -/
lemma set?_addChild : (t.addChild parent depth set key).2.set? x =
    if x = t.nodes.size then set else t.set? x := by
  rw [set?, set?, node?_addChild hp]
  split_ifs <;> cases t.node? x <;> rfl

/-- The new node has the depth it was made for. -/
lemma depth?_addChild : (t.addChild parent depth set key).2.depth? x =
    if x = t.nodes.size then some depth else t.depth? x := by
  rw [depth?, depth?, node?_addChild hp]
  split_ifs <;> cases t.node? x <;> rfl

/-- The new node is found below its parent, under the key it was made for. -/
lemma child?_addChild (key' : ChildKey) : (t.addChild parent depth set key).2.child? x key' =
    if x = parent ∧ key' = key then some t.nodes.size else t.child? x key' := by
  have hne : t.nodes.size ≠ parent := (ne_size_of_contains hp).symm
  rw [child?, child?, node?_addChild hp]
  by_cases hsize : x = t.nodes.size
  · subst hsize
    rw [if_pos rfl, if_neg (fun h => hne h.1), node?_size]
    rfl
  · rw [if_neg hsize]
    by_cases hparent : x = parent
    · obtain ⟨n, hn⟩ := Option.isSome_iff_exists.1 hp
      subst hparent
      simp [hn, Table.find?_insert]
    · simp [hparent]

/-- The new node is the only one that comes to life. -/
lemma contains_addChild : (t.addChild parent depth set key).2.contains x =
    (x = t.nodes.size || t.contains x) := by
  rw [contains_eq_isSome_depth?, depth?_addChild hp, contains_eq_isSome_depth?]
  split_ifs with h <;> simp [h]

/-- The key of the new node is that of its state set, or its own number. -/
lemma childKey_addChild : (t.addChild parent depth set key).2.childKey x =
    if x = t.nodes.size then set.elim (.group t.nodes.size) fun s => .set s.identity
    else t.childKey x := by
  rw [childKey, set?_addChild hp, childKey]
  split_ifs with h
  · rw [h]
  · rfl

end AddChild

/-- Recording a leaf at a live node gives a tree that looks the same through all views. -/
lemma views_addLeaf {t u : StateTree} {id : TreeId} {leaf : RenderLeaf}
    (h : t.addLeaf id leaf = some u) (x : TreeId) :
    u.parent? x = t.parent? x ∧ u.set? x = t.set? x ∧ u.depth? x = t.depth? x ∧
      ∀ key, u.child? x key = t.child? x key := by
  obtain ⟨n, -, hu⟩ := Option.bind_eq_some_iff.1 h
  obtain rfl := Option.some.inj hu
  simp only [parent?, set?, depth?, child?, node?_modify]
  split_ifs <;> cases t.node? x <;> simp

/-! ## Trees whose depths, parents and children fit together -/

/-- Depths, parents and children of a tree fit together. -/
structure WellFormed (t : StateTree) : Prop where
  /-- The root is at the top. -/
  depth_root : t.depth? root = some 0
  parent_root : t.parent? root = none
  set_root : t.set? root = none
  /-- Every other node hangs one level below a parent, which keeps it under its key. -/
  exists_parent : ∀ {id : TreeId}, t.contains id → id ≠ root → ∃ p d, t.parent? id = some p ∧
    t.depth? p = some d ∧ t.depth? id = some (d + 1) ∧ t.child? p (t.childKey id) = some id
  /-- What a node keeps under a key is a node that hangs below it and has that key. -/
  of_child : ∀ {p : TreeId} {key : ChildKey} {id : TreeId}, t.child? p key = some id →
    t.parent? id = some p ∧ t.childKey id = key

namespace WellFormed

/-- Whether a tree is well-formed is seen through the views. -/
lemma congr {t u : StateTree} (ht : t.WellFormed)
    (h : ∀ x, u.parent? x = t.parent? x ∧ u.set? x = t.set? x ∧ u.depth? x = t.depth? x ∧
      ∀ key, u.child? x key = t.child? x key) : u.WellFormed := by
  have hparent : ∀ x, u.parent? x = t.parent? x := fun x => (h x).1
  have hset : ∀ x, u.set? x = t.set? x := fun x => (h x).2.1
  have hdepth : ∀ x, u.depth? x = t.depth? x := fun x => (h x).2.2.1
  have hchild : ∀ x key, u.child? x key = t.child? x key := fun x => (h x).2.2.2
  have hcontains : ∀ x, u.contains x = t.contains x := fun x => by
    rw [contains_eq_isSome_depth?, contains_eq_isSome_depth?, hdepth]
  have hkey : ∀ x, u.childKey x = t.childKey x := fun x => by rw [childKey, childKey, hset]
  constructor
  · rw [hdepth, ht.depth_root]
  · rw [hparent, ht.parent_root]
  · rw [hset, ht.set_root]
  · intro id hid hne
    rw [hcontains] at hid
    simpa only [hparent, hdepth, hchild, hkey] using ht.exists_parent hid hne
  · intro p key id hc
    rw [hchild] at hc
    simpa only [hparent, hkey] using ht.of_child hc

/-- The bare root is a well-formed tree. -/
lemma empty : WellFormed .empty where
  depth_root := rfl
  parent_root := rfl
  set_root := rfl
  exists_parent {id} hid hne := by
    exfalso
    have hlt : id < 1 := issued_of_contains hid
    exact hne (Nat.lt_one_iff.1 hlt)
  of_child {p key id} hc := by
    obtain ⟨n, hn, hfind⟩ := Option.bind_eq_some_iff.1 hc
    have hlt : p < 1 := issued_of_contains (t := .empty) (by rw [contains, hn]; rfl)
    obtain rfl : p = root := Nat.lt_one_iff.1 hlt
    obtain rfl : TreeNode.bare = n := Option.some.inj hn
    cases hfind

variable {t u : StateTree}

/-- A group's own number is never the key of another node, so that a new group is not found yet. -/
lemma child?_group_size (ht : t.WellFormed) (p : TreeId) :
    t.child? p (.group t.nodes.size) = none := by
  by_contra hne
  obtain ⟨c, hc⟩ := Option.ne_none_iff_exists'.1 hne
  obtain ⟨hparent, hkey⟩ := ht.of_child hc
  have hlt : c < t.nodes.size := issued_of_contains (contains_of_parent? hparent)
  rw [childKey] at hkey
  cases hset : t.set? c with
  | none =>
    rw [hset] at hkey
    exact hlt.ne (ChildKey.group.inj hkey)
  | some s =>
    rw [hset] at hkey
    cases hkey

/-- A node that is made one level below a live one, under its own key and a key that is free there,
fits in. -/
lemma addChild (ht : t.WellFormed) {parent : TreeId} {d : Nat} (hd : t.depth? parent = some d)
    (set : Option SharedSet) (key : ChildKey)
    (hkey : key = set.elim (.group t.nodes.size) fun s => .set s.identity)
    (hfree : t.child? parent key = none) :
    (t.addChild parent (d + 1) set key).2.WellFormed := by
  have hp : t.contains parent := contains_of_depth? hd
  have hroot : root ≠ t.nodes.size := ne_size_of_contains (contains_of_depth? ht.depth_root)
  constructor
  · rw [depth?_addChild hp, if_neg hroot, ht.depth_root]
  · rw [parent?_addChild hp, if_neg hroot, ht.parent_root]
  · rw [set?_addChild hp, if_neg hroot, ht.set_root]
  · intro id hid hne
    by_cases hnew : id = t.nodes.size
    · subst hnew
      refine ⟨parent, d, ?_, ?_, ?_, ?_⟩
      · rw [parent?_addChild hp, if_pos rfl]
      · rw [depth?_addChild hp, if_neg (ne_size_of_contains hp), hd]
      · rw [depth?_addChild hp, if_pos rfl]
      · rw [childKey_addChild hp, if_pos rfl, ← hkey, child?_addChild hp, if_pos ⟨rfl, rfl⟩]
    · have hidOld : t.contains id := by
        rw [contains_addChild hp] at hid
        simpa [hnew] using hid
      obtain ⟨q, e, hq, he, hde, hc⟩ := ht.exists_parent hidOld hne
      refine ⟨q, e, ?_, ?_, ?_, ?_⟩
      · rw [parent?_addChild hp, if_neg hnew, hq]
      · rw [depth?_addChild hp, if_neg (ne_size_of_contains (contains_of_depth? he)), he]
      · rw [depth?_addChild hp, if_neg hnew, hde]
      · rw [childKey_addChild hp, if_neg hnew, child?_addChild hp, if_neg, hc]
        rintro ⟨rfl, hk⟩
        rw [hk, hfree] at hc
        cases hc
  · intro q k id hc
    rw [child?_addChild hp] at hc
    split_ifs at hc with hq
    · obtain rfl := Option.some.inj hc
      obtain ⟨rfl, rfl⟩ := hq
      refine ⟨?_, ?_⟩
      · rw [parent?_addChild hp, if_pos rfl]
      · rw [childKey_addChild hp, if_pos rfl, hkey]
    · obtain ⟨hparent, hk⟩ := ht.of_child hc
      have hidOld : id ≠ t.nodes.size := ne_size_of_contains (contains_of_parent? hparent)
      refine ⟨?_, ?_⟩
      · rw [parent?_addChild hp, if_neg hidOld, hparent]
      · rw [childKey_addChild hp, if_neg hidOld, hk]

/-- Asking for the node of a state set keeps a tree well-formed. -/
lemma insertSet (ht : t.WellFormed) {parent : TreeId} {s : SharedSet} {id : TreeId}
    (h : t.insertSet parent s = some (id, u)) : u.WellFormed := by
  obtain ⟨-, rfl⟩ | ⟨d, hd, hfree, hnew⟩ := insertSet_cases h
  · exact ht
  · have hgrown := ht.addChild hd (some s) (.set s.identity) rfl hfree
    rwa [hnew] at hgrown

/-- A new group keeps a tree well-formed. -/
lemma insertGroup (ht : t.WellFormed) {parent id : TreeId}
    (h : t.insertGroup parent = some (id, u)) : u.WellFormed := by
  obtain ⟨d, hd, hnew⟩ := insertGroup_cases h
  have hgrown := ht.addChild hd none (.group t.nodes.size) rfl (ht.child?_group_size parent)
  rwa [hnew] at hgrown

/-- Recording a leaf keeps a tree well-formed. -/
lemma addLeaf (ht : t.WellFormed) {id : TreeId} {leaf : RenderLeaf}
    (h : t.addLeaf id leaf = some u) : u.WellFormed :=
  ht.congr (views_addLeaf h)

/-- Cleaning leaves the bare root, as in a new tree. -/
lemma node?_clean_eq (ht : t.WellFormed) (x : TreeId) :
    t.clean.node? x = StateTree.empty.node? x := by
  rw [node?_clean]
  by_cases hx : x = root
  · subst hx
    obtain ⟨n, hn, hdepth⟩ := Option.map_eq_some_iff.1 ht.depth_root
    have hparent : n.parent = none := by simpa [parent?, hn] using ht.parent_root
    have hset : n.set = none := by simpa [set?, hn] using ht.set_root
    have hbare : n.cleared = .bare := by
      rw [TreeNode.cleared, hdepth, hparent, hset]
      rfl
    rw [if_pos rfl, hn, Option.map_some, hbare]
    rfl
  · have hle : StateTree.empty.nodes.size ≤ x := Nat.pos_of_ne_zero hx
    rw [if_neg hx, node?, Array.getElem?_eq_none hle]
    rfl

/-- A cleaned tree is well-formed. -/
lemma clean (ht : t.WellFormed) : t.clean.WellFormed :=
  empty.congr fun x => by simp [parent?, set?, depth?, child?, ht.node?_clean_eq]

/-- Every edit keeps a tree well-formed. -/
lemma edit (ht : t.WellFormed) {e : TreeEdit} (h : t.edit? e = some u) : u.WellFormed := by
  cases e with
  | insertSet parent s =>
    obtain ⟨⟨id, v⟩, hv, rfl⟩ := Option.map_eq_some_iff.1 h
    exact ht.insertSet hv
  | insertGroup parent =>
    obtain ⟨⟨id, v⟩, hv, rfl⟩ := Option.map_eq_some_iff.1 h
    exact ht.insertGroup hv
  | addLeaf id leaf => exact ht.addLeaf h
  | clean =>
    obtain rfl := Option.some.inj h
    exact ht.clean

end WellFormed

/-- Every tree that edits make of a well-formed one is well-formed. -/
lemma GrownFrom.wellFormed {t u : StateTree} (h : GrownFrom t u) (ht : t.WellFormed) :
    u.WellFormed := by
  induction h with
  | refl => exact ht
  | edit e _ hstep ih => exact ih.edit hstep

/-- Every reachable tree is well-formed. -/
lemma Reachable.wellFormed {t : StateTree} (h : t.Reachable) : t.WellFormed :=
  GrownFrom.wellFormed h .empty

/-! ## Dropped nodes -/

/-- The new node was not dropped before, and no other node comes to life. -/
lemma IsDropped.addChild {t : StateTree} {id parent : TreeId} (h : t.IsDropped id)
    (hp : t.contains parent) (depth : Nat) (set : Option SharedSet) (key : ChildKey) :
    (t.addChild parent depth set key).2.IsDropped id := by
  have hne : id ≠ t.nodes.size := (show id < t.nodes.size from h.1).ne
  constructor
  · have hlt : id < t.nodes.size + 1 := Nat.lt_succ_of_lt h.1
    simpa [Issued, StateTree.addChild, modify] using hlt
  · rw [contains_addChild hp, h.2]
    simp [hne]

/-- Cleaning drops every node but the root. -/
lemma isDropped_clean {t : StateTree} {id : TreeId} (h : t.Issued id) (hne : id ≠ root) :
    t.clean.IsDropped id := by
  constructor
  · rw [Issued, clean, Array.size_mapIdx]
    exact h
  · rw [contains, node?_clean, if_neg hne]
    rfl

/-- No edit brings a dropped node to life. -/
lemma IsDropped.edit {t u : StateTree} {id : TreeId} (h : t.IsDropped id) (hne : id ≠ root)
    {e : TreeEdit} (he : t.edit? e = some u) : u.IsDropped id := by
  cases e with
  | insertSet parent s =>
    obtain ⟨⟨x, v⟩, hv, rfl⟩ := Option.map_eq_some_iff.1 he
    obtain ⟨-, rfl⟩ | ⟨d, hd, -, hnew⟩ := insertSet_cases hv
    · exact h
    · have hgrown := h.addChild (contains_of_depth? hd) (d + 1) (some s) (.set s.identity)
      rwa [hnew] at hgrown
  | insertGroup parent =>
    obtain ⟨⟨x, v⟩, hv, rfl⟩ := Option.map_eq_some_iff.1 he
    obtain ⟨d, hd, hnew⟩ := insertGroup_cases hv
    have hgrown := h.addChild (contains_of_depth? hd) (d + 1) none (.group t.nodes.size)
    rwa [hnew] at hgrown
  | addLeaf x leaf =>
    have hviews := views_addLeaf he id
    constructor
    · obtain ⟨n, -, hu⟩ := Option.bind_eq_some_iff.1 he
      obtain rfl := Option.some.inj hu
      have hlt : id < t.nodes.size := h.1
      simpa [Issued, modify] using hlt
    · rw [contains_eq_isSome_depth?, hviews.2.2.1, ← contains_eq_isSome_depth?, h.2]
  | clean =>
    obtain rfl := Option.some.inj he
    exact isDropped_clean h.1 hne

/-- A dropped node stays dropped, whatever the tree grows into. -/
lemma GrownFrom.isDropped {t u : StateTree} {id : TreeId} (h : GrownFrom t u)
    (hid : t.IsDropped id) (hne : id ≠ root) : u.IsDropped id := by
  induction h with
  | refl => exact hid
  | edit e _ hstep ih => exact ih.edit hne hstep

end StateTree

end SceneShading
