import SceneShading.Graph.Basic
import SceneShading.Json.Decode
import SceneShading.Snapshot.Basic

/-!
# Wiring read from snapshots

How a tool wires the nodes of a graph. A node is named by its number or by a label that the tool gave
to it; an input is a node or a literal. A wiring that names an unknown label is refused.
-/

namespace SceneShading

/-- Labels of nodes; the last label comes first. -/
abbrev NodeLabels := List (String × NodeId)

namespace NodeLabels

/-- The node of a number or a label. -/
def node? (labels : NodeLabels) : Json → Option NodeId
  | .number (.integer i) => some i.toNat
  | .text (some s) => List.lookup s labels
  | _ => none

/-- A node, or a literal. -/
def source? (labels : NodeLabels) (j : Json) : Option Source :=
  match j.textMember? "lit" with
  | some s => some (.literal s)
  | none => (labels.node? j).map .node

/-- Pins with what they are wired to. -/
def pins? {α : Type} (end? : Json → Option α) (j : Json) : Option (List (String × α)) :=
  j.items.mapM fun p => match p.items with
    | [name, i] => (end? i).map (name.textOrEmpty, ·)
    | _ => none

/-- Inputs: one, several without pins, or several with pins. -/
def inputs? (labels : NodeLabels) (j : Json) : Option InputSet :=
  match j.member? "one", j.member? "pos" with
  | some i, _ => (labels.source? i).map fun s => .positional [s]
  | none, some is => .positional <$> is.items.mapM labels.source?
  | none, none => .named <$> pins? labels.source? (j.member "named")

/-- Outputs: one, several with pins, or none. -/
def outputs? (labels : NodeLabels) (j : Json) : Option Outputs :=
  match j.member? "one", j.member? "named" with
  | some i, _ => (labels.node? i).map .single
  | none, some ps => .named <$> pins? labels.node? ps
  | none, none => some .none

end NodeLabels

namespace Graph

/-- The graph after a member of a wiring was applied, if it is there. -/
def applyMember {α : Type} (g : Graph) (member : Option α) (f : Graph → α → Graph) : Graph :=
  member.elim g (f g)

/-- The graph with a node wired: comment, value and code, flags, inputs, outputs. -/
def applyWiring (g : Graph) (labels : NodeLabels) (id : NodeId) (j : Json) : Option Graph := do
  let flag (name : String) (f : Bool → MatrixMult → MatrixMult) (g : Graph) : Graph :=
    g.applyMember (j.member name).asBool fun g b => g.setMatrixFlags id (f b)
  let g := g.applyMember (j.textMember? "comment") (·.setComment id ·)
  let g := g.applyMember (j.textMember? "value") (·.setValue id ·)
  let g := g.applyMember (j.textMember? "code") (·.setCode id ·)
  let g := flag "inverse" (fun b m => { m with inverse := b }) g
  let g := flag "overwrite_w" (fun b m => { m with overwriteW := b }) g
  let g := flag "force_complement" (fun b m => { m with forceComplement := b }) g
  let inputs ← (j.member? "inputs").mapM labels.inputs?
  let outputs ← (j.member? "outputs").mapM labels.outputs?
  return (g.applyMember inputs (·.wireInputs id ·)).applyMember outputs (·.wireOutputs id ·)

end Graph

end SceneShading
