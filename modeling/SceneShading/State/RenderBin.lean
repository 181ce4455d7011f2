import SceneShading.State.Pipeline

/-!
# Render bins

A render bin is a draw list over a state tree. Between two entries only the state sets are popped
and pushed that tell their chains apart; then the state is applied and the leaves of the entry are
drawn. Entries without a visible leaf are passed over, and in the end every set is popped again.
-/

namespace SceneShading

/-- A draw list. -/
structure RenderBin where
  entries : List TreeId := []
  /-- Leaves outside of the view are culled; without a view none is. -/
  view : Option (Sphere Binary32) := none
deriving Repr, Inhabited

/-- Why a bin cannot be drawn. -/
inductive DrawFault where
  /-- The node of an entry was dropped. -/
  | staleNode (id : TreeId)
  /-- A program cannot be built. -/
  | program (fault : Fault)
deriving Repr, Inhabited

/-- What was drawn so far. -/
structure Drawing where
  state : PipelineState
  generator : Generator
  /-- The entry that was drawn last. -/
  previous : Option TreeId := none
  events : List Event := []
  drawn : Nat := 0

namespace RenderBin

/-- The bin with one more entry. -/
def add (b : RenderBin) (id : TreeId) : RenderBin := { b with entries := b.entries ++ [id] }

/-- The bin without entries. -/
def clear (b : RenderBin) : RenderBin := { b with entries := [] }

/-- The bin has no entries. -/
def isEmpty (b : RenderBin) : Bool := b.entries.isEmpty

/-- The leaves that are not culled. -/
def visible (b : RenderBin) (leaves : List RenderLeaf) : List RenderLeaf :=
  leaves.filter fun l => b.view.all fun v => !l.bounds.culledBy v

/-- The drawing after the visible leaves of an entry. -/
def drawLeaves (tree : StateTree) (d : Drawing) (id : TreeId) (leaves : List RenderLeaf) :
    Except DrawFault Drawing :=
  match tree.move d.previous id with
  | none => .error (.staleNode id)
  | some steps =>
    match (d.state.run steps).apply d.generator with
    | .error fault => .error (.program fault)
    | .ok a =>
      .ok { state := a.state
            generator := a.generator
            previous := some id
            events := d.events ++ a.events ++ leaves.map .draw
            drawn := d.drawn + leaves.length }

/-- The drawing after an entry. -/
def drawEntry (b : RenderBin) (tree : StateTree) (d : Drawing) (id : TreeId) :
    Except DrawFault Drawing :=
  match tree.node? id with
  | none => .error (.staleNode id)
  | some node =>
    let leaves := b.visible node.leaves
    if leaves.isEmpty then .ok d else drawLeaves tree d id leaves

/-- The drawing after its sets are popped again. -/
def unwind (tree : StateTree) (d : Drawing) : Drawing :=
  let steps := (d.previous.bind tree.popToRoot).getD []
  { d with state := d.state.run steps }

/-- The bin drawn in a state. -/
def draw (b : RenderBin) (tree : StateTree) (state : PipelineState) (generator : Generator) :
    Except DrawFault Drawing :=
  (b.entries.foldlM (b.drawEntry tree) { state, generator }).map (unwind tree)

end RenderBin

end SceneShading
