import SceneShading.Graph.Basic

/-!
# Builders

A builder is a program that adds nodes to a graph and answers with what it added. The requests here
are those of `Graph`, in the order in which a builder makes them: the order decides the numbers of
nodes and the names of locals, and with them the text of the source.
-/

namespace SceneShading

/-- A program that changes a graph and answers with a value. -/
abbrev Builder := StateM Graph

/-- Named pins and their nodes. -/
abbrev Pins := List (String × NodeId)

namespace Pins

/-- The pins with one of them wired to a node, in its old place if it has one. -/
def set (pins : Pins) (name : String) (id : NodeId) : Pins :=
  if pins.any (·.1 == name) then pins.map fun p => if p.1 = name then (name, id) else p
  else pins ++ [(name, id)]

/-- The pins with several of them set one after another. -/
def setAll (pins others : Pins) : Pins := others.foldl (fun ps p => ps.set p.1 p.2) pins

/-- The pins as inputs. -/
def inputs (pins : Pins) : InputSet := .named (pins.map fun p => (p.1, .node p.2))

end Pins

/-- Nodes as inputs without pins. -/
def InputSet.ofNodes (ids : List NodeId) : InputSet := .positional (ids.map .node)

namespace Builder

/-- The node of a registered name. -/
def find? (name : String) : Builder (Option NodeId) := fun g => (g.find? name, g)

/-- A new node without wiring. -/
def node (kind : NodeKind) : Builder NodeId := fun g => g.insert kind

/-- A new operation with its inputs and outputs. -/
def operation (kind : NodeKind) (inputs : InputSet) (outputs : Outputs) : Builder NodeId := fun g =>
  let (id, g) := g.insert kind
  (id, (g.wireInputs id inputs).wireOutputs id outputs)

/-- A comment on a node. -/
def comment (id : NodeId) (text : String) : Builder Unit := fun g => ((), g.setComment id text)

/-- A fault of the builder itself. -/
def fail (f : Fault) : Builder Unit := fun g => ((), g.fail f)

/-- A new local under a temporary name. -/
def temporary (type : String) : Builder NodeId := fun g => g.createVariable type

/-- A new local under a wanted name. -/
def localNamed (type name : String) : Builder NodeId := fun g => g.createVariable type (some name)

/-- A new local with an initial value. -/
def localValued (type value : String) : Builder NodeId := fun g =>
  g.createVariableWithValue type none value

/-- The uniform of a name. -/
def uniform (type name : String) : Builder NodeId := fun g => g.uniform type name

/-- The uniform array of a name. -/
def uniformArray (type name : String) (size : Nat) : Builder NodeId := fun g =>
  g.uniform type name (some size)

/-- The sampler of a name. -/
def sampler (type name : String) : Builder NodeId := fun g => g.sampler type name

/-- The vertex attribute of a name. -/
def vertexAttribute (type name : String) : Builder NodeId := fun g => g.vertexAttribute type name

/-- The constant of a name. -/
def constant (type name value : String) : Builder NodeId := fun g => g.constant type name value

/-- The varying of a name. -/
def varying (type name : String) : Builder NodeId := fun g => g.varying type name

/-- The node of a registered name, or else what a builder makes. -/
def orElse (name : String) (make : Builder NodeId) : Builder NodeId := do
  match ← find? name with
  | some id => return id
  | none => make

/-- The node that names the program in its source. -/
def programName (name : String) : Builder NodeId := node (.define "SHADER_NAME" name)

end Builder

end SceneShading
