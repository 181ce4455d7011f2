import SceneShading.Codegen.Stage
import SceneShading.Snapshot.Attribute

/-!
# Snapshots of graphs and compiled stages

Nodes with their wiring, graphs with their registries, and the results of compiling, as JSON.
-/

namespace SceneShading

/-- A failure: its name and its wording. -/
def failureSnapshot (name message : String) : Json :=
  .ofMembers [("error", .ofString name), ("message", .ofString message)]

namespace Diagnostic

/-- A problem as a failure. -/
def failure (d : Diagnostic) : Json := failureSnapshot d.kindName d.message

/-- The wording of a problem, where it is fixed: what is wrong with a skeleton is not put into
words. -/
def messageMember : Diagnostic → List (String × Json)
  | .skeleton _ => []
  | d => [("message", .ofString d.message)]

/-- A problem with its severity. -/
def snapshot (d : Diagnostic) : Json :=
  .ofMembers ([("kind", .ofString d.kindName), ("severity", .ofString d.severity.name),
    ("is_error", .bool d.isError)] ++ d.messageMember)

/-- Several problems. -/
def snapshots (ds : List Diagnostic) : Json := .array (ds.map snapshot)

end Diagnostic

/-- Several numbers of nodes. -/
def NodeId.snapshots (ids : List NodeId) : Json := .array (ids.map Json.ofNat)

/-- A variable with its value. -/
def Variable.snapshot (v : Variable) : Json :=
  .ofMembers [("class", .ofString v.cls.name), ("ty", .ofString v.type), ("name", .ofString v.name),
    ("value", .ofOption .ofString v.value), ("size", .ofOption .ofNat v.size)]

/-- The flags of a product of matrices. -/
def MatrixMult.snapshot (m : MatrixMult) : Json :=
  .ofMembers [("mode", .ofString m.role.name), ("force_complement", .bool m.forceComplement),
    ("overwrite_w", .bool m.overwriteW), ("inverse", .bool m.inverse)]

namespace NodeKind

/-- What a kind of node holds. -/
def contentMembers : NodeKind → List (String × Json)
  | .var v => [("variable", v.snapshot)]
  | .output o => [("builtin", .ofStrings [o.typeName, o.variableName, o.glslType])]
  | .define name value => [("define", .ofStrings [name, value])]
  | .matrixMult m => [("matrix", m.snapshot)]
  | .inlineCode code => [("code", .ofString code)]
  | .shadowReceive config | .shadowCast config => [("config", config.snapshot)]
  | _ => []

/-- The type of a kind and what it holds. -/
def members (k : NodeKind) : List (String × Json) :=
  ("type", .ofString k.typeName) :: k.contentMembers

end NodeKind

/-- What a kind of node asks of its graph and adds to a source. -/
def NodeKind.demands (k : NodeKind) : List (String × Json) :=
  let n : Node := { id := 0, kind := k }
  let text (s : Option String) : Json := .ofOption .ofString s
  [("required_inputs", .ofStrings k.requiredInputs),
   ("required_outputs", .ofStrings k.requiredOutputs), ("defines", .ofStrings n.defines),
   ("extensions", .ofStrings n.extensions), ("global", text n.globalDeclaration),
   ("functions", text n.functionDeclaration), ("declare", text n.localDeclaration),
   ("builtin_output", .bool k.isOutput)]

/-- A node, or a literal. -/
def Source.snapshot : Source → Json
  | .node id => .ofNat id
  | .literal text => .ofMembers [("lit", .ofString text)]

/-- Declared outputs. -/
def Outputs.snapshot : Outputs → Json
  | .none => .null
  | .single id => .ofNat id
  | .named pins => .array (pins.map fun p => .array [.ofString p.1, .ofNat p.2])

/-- What declared outputs answer to a list of pins. -/
def Outputs.answers (o : Outputs) (pins : List String) : Json :=
  .ofMembers [("get", .array (pins.map fun p => .ofOption .ofNat (o.get? p))),
    ("first", .ofOption .ofNat o.first?),
    ("first_text", .ofOption (fun i => .ofString (Notice.nodeText i)) o.first?),
    ("targets", NodeId.snapshots o.targets),
    ("named", .array (o.pins.map fun p => .array [.ofString p.1, .ofNat p.2]))]

/-- A node with its wiring. -/
def Node.snapshot (n : Node) : Json :=
  .ofMembers (n.kind.members ++ [("id", .ofNat n.id),
    ("inputs", .array (n.inputs.map fun i => .array [.ofOption .ofString i.1, i.2.snapshot])),
    ("outputs", n.outputs.snapshot), ("comment", .ofOption .ofString n.comment)])

/-- A graph with its registry. -/
def Graph.snapshot (g : Graph) : Json :=
  .ofMembers [("stage", .ofString g.stage.name), ("len", .ofNat g.size),
    ("empty", .bool (g.size == 0)), ("nodes", .array (g.nodes.toList.map Node.snapshot)),
    ("variables", NodeId.snapshots (g.registered.map (·.id))),
    ("varyings", .array (g.varyings.map fun v => .array [.ofString v.1, .ofNat v.2])),
    ("diagnostics", Diagnostic.snapshots g.diagnostics)]

/-- A compiled stage, with its source and its digest where they are wanted. -/
def CompiledStage.snapshot (c : CompiledStage) (source hash : Bool) : Json :=
  .ofMembers ([("stage", .ofString c.stage.name), ("valid", .bool c.isValid),
    ("diagnostics", Diagnostic.snapshots c.diagnostics)] ++
    (if source then [("source", .ofString c.source)] else []) ++
    (if hash then [("hash", .ofString c.hash.hex)] else []))

/-- What an operand is called and what it can be read as, or why there is none. -/
def operandSnapshot : Except Diagnostic Operand → Json
  | .error d => d.failure
  | .ok o => .ofMembers [("name", .ofString o.name), ("ty", .ofOption .ofString o.type),
      ("vec3", .ofString o.vec3), ("alpha", .ofString o.alpha)]

end SceneShading
