import SceneShading.Node.Kind

/-!
# Shading nodes

A node is a kind with its wiring. Its inputs are a list of sources, each with or without a pin
name. Its outputs are variables that the node writes; declaring them makes the node an input of
each of them, so that a walk along inputs finds every node that writes a variable it reaches.
-/

namespace SceneShading

/-- The place of a node in its graph. -/
abbrev NodeId := Nat

/-- What an input is wired to. -/
inductive Source where
  | node (id : NodeId)
  /-- Text that goes into the code as it is. -/
  | literal (text : String)
deriving Repr, DecidableEq, Inhabited

namespace Source

/-- The node of a source. -/
def node? : Source → Option NodeId
  | node id => some id
  | literal _ => none

end Source

/-- The variables that a node writes. -/
inductive Outputs where
  | none
  | single (id : NodeId)
  | named (pins : List (String × NodeId))
deriving Repr, DecidableEq, Inhabited

namespace Outputs

/-- The variable of a pin. A single output stands for every pin. -/
def get? (o : Outputs) (pin : String) : Option NodeId :=
  match o with
  | none => .none
  | single id => some id
  | named pins => pins.lookup pin

/-- The only output, or the first named one. -/
def first? : Outputs → Option NodeId
  | none => .none
  | single id => some id
  | named pins => pins.head?.map (·.2)

/-- The named outputs. -/
def pins : Outputs → List (String × NodeId)
  | named pins => pins
  | _ => []

/-- Every output, in order. -/
def targets : Outputs → List NodeId
  | none => []
  | single id => [id]
  | named pins => pins.map (·.2)

end Outputs

/-- Inputs that are wired at once: added to the inputs of a node, or put in their place. -/
inductive InputSet where
  | positional (sources : List Source)
  | named (pins : List (String × Source))
deriving Repr, DecidableEq, Inhabited

/-- A node of a shading graph. -/
structure Node where
  id : NodeId
  kind : NodeKind
  inputs : List (Option String × Source) := []
  outputs : Outputs := .none
  /-- A comment line, with its marker. -/
  comment : Option String := none
deriving Repr, DecidableEq, Inhabited

namespace Node

/-- The type name of a node. -/
def typeName (n : Node) : String := n.kind.typeName

/-- The source of a named pin. -/
def input? (n : Node) (pin : String) : Option Source :=
  (n.inputs.find? (·.1 == some pin)).map (·.2)

/-- The nodes among the inputs, in order. -/
def inputNodes (n : Node) : List NodeId := n.inputs.filterMap (·.2.node?)

/-- The node with further inputs: sources without pins are added, named ones replace all. -/
def withInputs (n : Node) : InputSet → Node
  | .positional sources => { n with inputs := n.inputs ++ sources.map (none, ·) }
  | .named pins => { n with inputs := pins.map fun p => (some p.1, p.2) }

theorem inputNodes_withInputs_positional (n : Node) (sources : List Source) :
    (n.withInputs (.positional sources)).inputNodes =
      n.inputNodes ++ sources.filterMap Source.node? := by
  rw [withInputs, inputNodes, inputNodes, List.filterMap_append, List.filterMap_map]
  rfl

end Node

end SceneShading
