import SceneShading.Graph.Registry
import SceneShading.Node.Catalogue
import SceneShading.Notice

/-!
# Shading graphs

A shading graph holds the nodes of one stage of a program, the registry of its variables, the
varyings that the stage shares with the other one, and the problems met while it was built.

Every operation on a graph is total. An operation that is given the number of a node that does not
exist leaves the nodes alone and marks the graph with a *fault*; the first fault stays. A graph
without a fault was only ever asked for what it has.
-/

namespace SceneShading

/-- The stage of a program. -/
inductive Stage where
  | vertex
  | fragment
deriving Repr, DecidableEq, Inhabited

namespace Stage

/-- The name of a stage. -/
def name : Stage → String
  | vertex => "vertex"
  | fragment => "fragment"

end Stage

/-- A call that a graph or a program cannot answer. -/
inductive Fault where
  /-- The node does not exist. -/
  | missingNode (id : NodeId)
  /-- A name was cut inside the encoding of its first character. -/
  | cutCharacter (name : String)
deriving Repr, DecidableEq, Inhabited

/-- The nodes of one stage and what is known about them. -/
structure Graph where
  stage : Stage
  nodes : Array Node := #[]
  registry : Registry := {}
  /-- The names of varyings and their nodes, in the order of the requests. -/
  varyings : List (String × NodeId) := []
  /-- A vertex stage may be asked for varyings that no fragment graph declares. -/
  customFragment : Bool := false
  diagnostics : List Diagnostic := []
  journal : List Notice := []
  fault : Option Fault := none
deriving Repr, Inhabited

namespace Graph

/-- The graph of a stage without nodes. -/
def ofStage (stage : Stage) : Graph := { stage }

/-- The number of nodes. -/
def size (g : Graph) : Nat := g.nodes.size

/-- The node of a number. -/
def node? (g : Graph) (id : NodeId) : Option Node := g.nodes[id]?

/-- The variable of a node. -/
def declared? (g : Graph) (id : NodeId) : Option Variable := (g.node? id).bind (·.kind.declared?)

/-- The node registered under a name. -/
def find? (g : Graph) (name : String) : Option NodeId := g.registry.find? name

/-- The registered variables in the order of first registration. -/
def registered (g : Graph) : List Node := g.registry.entries.filterMap fun e => g.node? e.2

/-! ## Marks -/

/-- The graph with an entry of its journal. -/
def note (g : Graph) (n : Notice) : Graph := { g with journal := g.journal ++ [n] }

/-- The graph with an entry of its journal under a condition. -/
def noteIf (g : Graph) (condition : Bool) (n : Notice) : Graph := if condition then g.note n else g

/-- The graph with a recorded problem. -/
def report (g : Graph) (d : Diagnostic) : Graph :=
  { g.note (.problem d) with diagnostics := g.diagnostics ++ [d] }

/-- The graph marked with a fault, unless it has one. -/
def fail (g : Graph) (f : Fault) : Graph := { g with fault := g.fault.orElse fun _ => some f }

/-! ## Nodes -/

/-- The graph with a node of the kind, and the number of that node. -/
def insert (g : Graph) (kind : NodeKind) : NodeId × Graph :=
  (g.size, { g with nodes := g.nodes.push { id := g.size, kind } })

/-- The graph with one node changed. -/
def modify (g : Graph) (id : NodeId) (f : Node → Node) : Graph :=
  if id < g.size then { g with nodes := g.nodes.modify id f } else g.fail (.missingNode id)

/-- The graph with inputs wired to a node. -/
def wireInputs (g : Graph) (id : NodeId) (inputs : InputSet) : Graph :=
  g.modify id (·.withInputs inputs)

/-- The graph where the node is a further input of a target. -/
def linkTarget (id : NodeId) (g : Graph) (target : NodeId) : Graph :=
  if target < g.size then g.wireInputs target (.positional [.node id])
  else g.note (.missingTarget target id)

/-- The graph with the outputs of a node declared. The node becomes an input of each of them.
Built-in outputs have no outputs of their own. -/
def wireOutputs (g : Graph) (id : NodeId) (outputs : Outputs) : Graph :=
  match g.node? id with
  | none => g.fail (.missingNode id)
  | some n =>
    if n.kind.isOutput then g
    else (outputs.targets.foldl (linkTarget id) g).modify id fun n => { n with outputs }

/-- The graph with the comment of a node set. -/
def setComment (g : Graph) (id : NodeId) (text : String) : Graph :=
  g.modify id fun n => { n with comment := some ("//" ++ text) }

/-- The graph with the value of a variable or definition set. -/
def setValue (g : Graph) (id : NodeId) (value : String) : Graph :=
  match g.node? id with
  | none => g.fail (.missingNode id)
  | some n =>
    match n.kind.withValue? value with
    | some kind => g.modify id fun n => { n with kind }
    | none => g.note (.noValueToSet id)

/-- The graph with the code of a snippet set. -/
def setCode (g : Graph) (id : NodeId) (code : String) : Graph :=
  match g.node? id with
  | none => g.fail (.missingNode id)
  | some n =>
    match n.kind with
    | .inlineCode _ => g.modify id fun n => { n with kind := .inlineCode code }
    | _ => g.note (.noInlineCode n.typeName)

/-- The graph with the flags of a product changed; other nodes stay as they are. -/
def setMatrixFlags (g : Graph) (id : NodeId) (f : MatrixMult → MatrixMult) : Graph :=
  g.modify id fun n =>
    match n.kind with
    | .matrixMult m => { n with kind := .matrixMult (f m) }
    | _ => n

/-! ## Variables -/

/-- The graph with a new variable registered under its name. -/
def insertVariable (g : Graph) (v : Variable) : NodeId × Graph :=
  let (id, g) := g.insert (.var v)
  (id, { g with registry := g.registry.register v.name id })

/-- The graph after a variable was asked for with a type, which may not be its own, and whether it
is. -/
def checkType (g : Graph) (existing : NodeId) (name type : String) : Bool × Graph :=
  match g.declared? existing with
  | some v =>
    if v.type = type then (true, g) else (false, g.report (.typeMismatch name type v.type))
  | none => (true, g)

/-- A new local of `main`, under its wanted name or a free one. -/
def createVariable (g : Graph) (type : String) (name : Option String := none) : NodeId × Graph :=
  g.insertVariable { cls := .temporary, type, name := g.registry.localName name }

/-- A new local of `main` with an initial value. -/
def createVariableWithValue (g : Graph) (type : String) (name : Option String) (value : String) :
    NodeId × Graph :=
  let (id, g) := g.createVariable type name
  (id, g.setValue id value)

/-- The uniform of a name and type; a uniform of another type is declared anew. -/
def uniform (g : Graph) (type name : String) (size : Option Nat := none) : NodeId × Graph :=
  let g := g.noteIf name.isEmpty .unnamedUniform
  let fresh (g : Graph) := g.insertVariable { cls := .uniform, type, name, size }
  match g.find? name with
  | some existing =>
    let (same, g) := g.checkType existing name type
    if same then (existing, g) else fresh g
  | none => fresh g

/-- The variable of a name, whatever its type, or else a new sampler. -/
def sampler (g : Graph) (type name : String) : NodeId × Graph :=
  let g := g.noteIf name.isEmpty (.unnamedSampler type)
  match g.find? name with
  | some existing => (existing, g)
  | none => g.insertVariable { cls := .sampler, type, name }

/-- The variable of a name, or else a new vertex attribute. -/
def vertexAttribute (g : Graph) (type name : String) : NodeId × Graph :=
  let g := g.noteIf (g.stage = .fragment) (.attributeInFragment name)
  match g.find? name with
  | some existing => (existing, (g.checkType existing name type).2)
  | none => g.insertVariable { cls := .attribute, type, name }

/-- The variable of a name, or else a new constant. -/
def constant (g : Graph) (type name value : String) : NodeId × Graph :=
  match g.find? name with
  | some existing => (existing, (g.checkType existing name type).2)
  | none =>
    let (id, g) := g.insertVariable { cls := .constant, type, name }
    (id, g.setValue id value)

/-- The graph with a node recorded as a varying. -/
def addVarying (g : Graph) (name : String) (id : NodeId) : Graph :=
  { g with varyings := g.varyings ++ [(name, id)] }

/-- The variable of a name, or else a new varying. -/
def varying (g : Graph) (type name : String) : NodeId × Graph :=
  match g.find? name with
  | some existing =>
    let g := g.noteIf (!g.varyings.any (·.1 == name)) (.notAVarying name)
    (existing, (g.checkType existing name type).2)
  | none =>
    let g := g.noteIf (g.stage = .vertex && !g.customFragment) (.undeclaredVarying name type)
    let (id, g) := g.insertVariable { cls := .varying, type, name }
    (id, g.addVarying name id)

/-- A node of a type that a catalogue registers. A variable whose name is registered is the node of
that name; any other variable joins the registry, and the varyings if it is one. -/
def createNode (g : Graph) (catalogue : Catalogue) (nodeType : String) (args : List NodeArg) :
    Except Diagnostic NodeId × Graph :=
  let g := g.noteIf (!catalogue.contains nodeType) (.unknownNodeType nodeType)
  match catalogue.create nodeType args with
  | .error d => (.error d, g)
  | .ok (.var v) =>
    match g.find? v.name with
    | some existing => (.ok existing, (g.checkType existing v.name v.type).2)
    | none =>
      let (id, g) := g.insertVariable v
      (.ok id, if v.cls = .varying then g.addVarying v.name id else g)
  | .ok kind =>
    let (id, g) := g.insert kind
    (.ok id, g)

/-- The vertex graph that owes a fragment graph its varyings. -/
def vertexFor (fragment : Graph) : Graph :=
  fragment.varyings.foldl (fun g (name, source) =>
    let type := ((fragment.declared? source).map (·.type)).getD ""
    let (id, g) := g.insertVariable { cls := .varying, type, name }
    g.addVarying name id) (ofStage .vertex)

end Graph

end SceneShading
