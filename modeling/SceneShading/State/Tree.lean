import SceneShading.Bounds.Sphere
import SceneShading.Notice
import SceneShading.State.Set

/-!
# State trees

A state tree holds the chains of state sets that drawables are drawn under. Every node but the root
hangs below a parent and carries a state set, or is a group that carries none. Below one parent a
state set has one node, however often it is asked for, so that drawables with the same chain meet at
the same node; groups are never shared.

Between two nodes there is a shortest way from one chain of state sets to the other: up to the
deepest node above both, and down again. `StateTree.move` lists the sets that are popped and pushed
on that way.

The number of a node is never given away again. Cleaning a tree drops all nodes but the root, and
whatever is asked about a dropped node has no answer.
-/

namespace SceneShading

/-- The number of a node of a state tree. -/
abbrev TreeId := Nat

/-- A drawable recorded at a node. -/
structure RenderLeaf where
  drawable : Nat
  model : Mat4 Binary32 := Mat4.identity
  bounds : Sphere Binary32 := Sphere.invalid
  /-- The squared distance to the viewer. -/
  distanceSq : Binary32 := .zero
deriving Repr, Inhabited

/-- What a child is found by below its parent. -/
inductive ChildKey where
  /-- The identity of its state set. -/
  | set (identity : Nat)
  /-- Its own number, for a group. -/
  | group (id : TreeId)
deriving Repr, DecidableEq, Inhabited

/-- A node of a state tree. -/
structure TreeNode where
  parent : Option TreeId := none
  set : Option SharedSet := none
  depth : Nat := 0
  children : Table ChildKey TreeId := {}
  leaves : List RenderLeaf := []
deriving Inhabited

/-- The root of a tree without anything else. -/
def TreeNode.bare : TreeNode := {}

/-- The node without children and leaves. -/
def TreeNode.cleared (n : TreeNode) : TreeNode := { n with children := .empty, leaves := [] }

/-- A step between two chains of state sets. -/
inductive Transition where
  | push (set : SharedSet)
  | pop (set : SharedSet)
deriving Inhabited

namespace Transition

/-- The set that is pushed or popped. -/
def set : Transition → SharedSet
  | push s | pop s => s

/-- The set is pushed. -/
def isPush : Transition → Bool
  | push _ => true
  | pop _ => false

end Transition

/-- A tree of state sets. Dropped nodes leave their places empty. -/
structure StateTree where
  nodes : Array (Option TreeNode) := #[some .bare]

namespace StateTree

/-- The tree that is nothing but its root. -/
def empty : StateTree := {}

/-- The number of the root. -/
def root : TreeId := 0

/-- The node of a number, if it was not dropped. -/
def node? (t : StateTree) (id : TreeId) : Option TreeNode := t.nodes[id]?.join

/-- The node was not dropped. -/
def contains (t : StateTree) (id : TreeId) : Bool := (t.node? id).isSome

/-- The number of nodes, the root included. -/
def size (t : StateTree) : Nat := (t.nodes.toList.filter Option.isSome).length

/-- There is nothing but the root. -/
def isEmpty (t : StateTree) : Bool := decide (t.size ≤ 1)

/-! ## Growing -/

/-- The tree with a node changed. -/
def modify (t : StateTree) (id : TreeId) (f : TreeNode → TreeNode) : StateTree :=
  ⟨t.nodes.modify id (·.map f)⟩

/-- The tree with a new node below a parent, and the number of that node. -/
def addChild (t : StateTree) (parent : TreeId) (depth : Nat) (set : Option SharedSet)
    (key : ChildKey) : TreeId × StateTree :=
  let id := t.nodes.size
  let grown : StateTree := ⟨t.nodes.push (some { parent := some parent, set, depth })⟩
  (id, grown.modify parent fun n => { n with children := n.children.insert key id })

/-- The node of a state set below a parent, which is made on the first request. -/
def insertSet (t : StateTree) (parent : TreeId) (s : SharedSet) : Option (TreeId × StateTree) := do
  let node ← t.node? parent
  match node.children.find? (.set s.identity) with
  | some child => return (child, t)
  | none => return t.addChild parent (node.depth + 1) (some s) (.set s.identity)

/-- A new group below a parent. -/
def insertGroup (t : StateTree) (parent : TreeId) : Option (TreeId × StateTree) := do
  let node ← t.node? parent
  return t.addChild parent (node.depth + 1) none (.group t.nodes.size)

/-- The tree with a drawable recorded at a node. -/
def addLeaf (t : StateTree) (id : TreeId) (leaf : RenderLeaf) : Option StateTree := do
  let _ ← t.node? id
  return t.modify id fun n => { n with leaves := n.leaves ++ [leaf] }

/-- The tree without all nodes but the root, which keeps neither children nor leaves. -/
def clean (t : StateTree) : StateTree :=
  ⟨t.nodes.mapIdx fun id node => if id = root then node.map (·.cleared) else none⟩

/-- What cleaning leaves in the journal. -/
def cleanNotice (t : StateTree) : Notice := .treeCleaned (t.size - 1)

/-! ## Moving -/

/-- The nodes on the way up from a node to the root, both included. The fuel bounds their number. -/
def ascent (t : StateTree) : Nat → TreeId → List TreeNode
  | 0, _ => []
  | fuel + 1, id =>
    match t.node? id with
    | none => []
    | some n => n :: n.parent.elim [] (ascent t fuel)

/-- The nodes from a node up to the root. -/
def path (t : StateTree) (id : TreeId) : List TreeNode :=
  (t.node? id).elim [] fun n => t.ascent (n.depth + 1) id

/-- The state sets from a node up to the root. -/
def chain (t : StateTree) (id : TreeId) : List SharedSet := (t.path id).filterMap (·.set)

/-- The sets that a climb of so many steps leaves behind, and where it ends. -/
def climb (t : StateTree) : Nat → TreeId → List SharedSet × TreeId
  | 0, id => ([], id)
  | steps + 1, id =>
    match t.node? id with
    | none => ([], id)
    | some n =>
      match n.parent with
      | none => (n.set.toList, id)
      | some p =>
        let (sets, top) := climb t steps p
        (n.set.toList ++ sets, top)

/-- The sets that two climbs of the same length leave behind until they meet. The fuel bounds their
length. -/
def climbTogether (t : StateTree) : Nat → TreeId → TreeId → List SharedSet × List SharedSet
  | 0, _, _ => ([], [])
  | fuel + 1, a, b =>
    if a = b then ([], [])
    else
      match t.node? a, t.node? b with
      | some m, some n =>
        let (ms, ns) := match m.parent, n.parent with
          | some p, some q => climbTogether t fuel p q
          | _, _ => ([], [])
        (m.set.toList ++ ms, n.set.toList ++ ns)
      | _, _ => ([], [])

/-- Leaving some sets, the nearest first, and entering others, which are given the nearest to their
end first. -/
def turn (left entered : List SharedSet) : List Transition :=
  left.map .pop ++ entered.reverse.map .push

/-- The way between two nodes, by climbing from the deeper one to the depth of the other, and from
there together. -/
def generalMove (t : StateTree) (a b : TreeId) (m n : TreeNode) : List Transition :=
  let (ms, a) := t.climb (m.depth - n.depth) a
  let (ns, b) := t.climb (n.depth - m.depth) b
  let (ms', ns') := t.climbTogether (min m.depth n.depth + 1) a b
  turn (ms ++ ms') (ns ++ ns')

/-- Two nodes hang below the same parent. -/
def areSiblings (m n : TreeNode) : Bool := m.parent.isSome && m.parent == n.parent

/-- The pops and pushes that lead from the chain of one node, or from the empty chain, to that of
another. Siblings, which follow each other most often, differ in their own sets alone. -/
def move (t : StateTree) (source : Option TreeId) (target : TreeId) : Option (List Transition) :=
  match source with
  | none => (t.node? target).map fun _ => turn [] (t.chain target)
  | some source =>
    if source = target then some []
    else do
      let m ← t.node? source
      let n ← t.node? target
      return if areSiblings m n then turn m.set.toList n.set.toList
        else t.generalMove source target m n

/-- The pops that lead from the chain of a node to the empty one. -/
def popToRoot (t : StateTree) (source : TreeId) : Option (List Transition) :=
  (t.node? source).map fun _ => turn (t.chain source) []

end StateTree

end SceneShading
