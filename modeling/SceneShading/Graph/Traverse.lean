import SceneShading.Graph.Basic

/-!
# Walking a graph

A graph is walked depth first from its roots, along inputs, and a node is listed after its inputs.
A node is entered once, also when its inputs lead back to it: the walk marks it when it enters it.
Every step downward marks a node that exists and was not marked, so the number of nodes bounds the
depth of the walk.
-/

namespace SceneShading

/-- The state of a walk. -/
structure Walk where
  /-- The nodes entered so far. -/
  entered : List NodeId := []
  /-- The nodes left so far, in the order in which they were left. -/
  order : List NodeId := []
  /-- The numbers met that no node has, in the order in which they were met. -/
  skipped : List NodeId := []
deriving Repr, DecidableEq, Inhabited

namespace Walk

/-- The walk after entering a node. -/
def enter (w : Walk) (id : NodeId) : Walk := { w with entered := id :: w.entered }

/-- The walk after leaving a node. -/
def leave (w : Walk) (id : NodeId) : Walk := { w with order := w.order ++ [id] }

/-- The walk after meeting a number that no node has. -/
def skip (w : Walk) (id : NodeId) : Walk := { w with skipped := w.skipped ++ [id] }

end Walk

namespace Graph

/-- The walk after a visit to a node and everything it reaches. The fuel bounds the depth. -/
def visit (g : Graph) : Nat → NodeId → Walk → Walk
  | 0, _, w => w
  | fuel + 1, id, w =>
    match g.node? id with
    | none => w.skip id
    | some n =>
      if w.entered.contains id then w
      else
        let inputs := n.inputNodes.filter (· ≠ id)
        (inputs.foldl (fun w input => visit g fuel input w) (w.enter id)).leave id

/-- The walk from roots. -/
def walk (g : Graph) (roots : List NodeId) : Walk :=
  roots.foldl (fun w root => visit g (g.size + 1) root w) {}

/-- The nodes that roots reach, each after its inputs. -/
def traverse (g : Graph) (roots : List NodeId) : List NodeId := (g.walk roots).order

/-- What a walk leaves in the journal: the numbers that no node has, and the nodes it did not
enter. -/
def walkNotices (g : Graph) (w : Walk) : List Notice :=
  w.skipped.map Notice.skippedNode ++
    (g.nodes.toList.filter fun n => !w.entered.contains n.id).map fun n =>
      .neverCompiled n.id n.typeName

/-- The nodes of a list of numbers. -/
def nodesOf (g : Graph) (ids : List NodeId) : List Node := ids.filterMap g.node?

end Graph

end SceneShading
