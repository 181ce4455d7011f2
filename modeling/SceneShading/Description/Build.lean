import SceneShading.Description.Basic
import SceneShading.Graph.Basic

/-!
# Building described graphs

A description is built in two rounds: all nodes are created, then each of them is wired in the order
of the description. A node that the catalogue cannot create and a reference that leads nowhere are
reported on the graph and left out; everything else is built as if they had never been written.
-/

namespace SceneShading

/-- The nodes created for identifiers; the last node of an identifier comes first. -/
abbrev BuiltIds := List (String × NodeId)

namespace Description

/-- The graph after creating a node, and the identifiers created so far. -/
def createStep (catalogue : Catalogue) (s : BuiltIds × Graph) (n : NodeDescription) :
    BuiltIds × Graph :=
  match s.2.createNode catalogue n.nodeType n.args with
  | (.ok id, g) => ((n.id, id) :: s.1, g)
  | (.error d, g) => (s.1, g.report d)

/-- The graph with all nodes created. -/
def createNodes (d : Description) (catalogue : Catalogue) (g : Graph) : BuiltIds × Graph :=
  d.nodes.foldl (createStep catalogue) ([], g)

/-- The source that a reference stands for; a reference that leads nowhere is reported. -/
def resolveSource (ids : BuiltIds) (node : String) (g : Graph) (reference : String) :
    Option Source × Graph :=
  match literal? reference with
  | some text => (some (.literal text), g)
  | none =>
    match ids.lookup reference with
    | some id => (some (.node id), g)
    | none => (none, g.report (.unknownReference node reference))

/-- The node that a reference stands for; a literal is reported, as it cannot be written to. -/
def resolveTarget (ids : BuiltIds) (node : String) (g : Graph) (reference : String) :
    Option NodeId × Graph :=
  match resolveSource ids node g reference with
  | (some (.node id), g) => (some id, g)
  | (some (.literal _), g) => (none, g.report (.notAVariable "Output" reference))
  | (none, g) => (none, g)

/-- What the references of a list stand for, where references that stand for nothing are left
out. -/
def resolveEach {α β : Type} (resolve : Graph → α → Option β × Graph) (g : Graph) (xs : List α) :
    List β × Graph :=
  xs.foldl (fun (found, g) x =>
    let (b, g) := resolve g x
    (found ++ b.toList, g)) ([], g)

/-- The same with the pins that the references belong to. -/
def resolvePins {β : Type} (resolve : Graph → String → Option β × Graph) (g : Graph)
    (pins : PinMap) : List (String × β) × Graph :=
  resolveEach (fun g (e : String × String) =>
    let (b, g) := resolve g e.2
    (b.map (e.1, ·), g)) g pins.entries

/-- The inputs of a described node. -/
def resolveInputs (ids : BuiltIds) (node : String) (g : Graph) :
    PinsDescription → Option InputSet × Graph
  | .single reference =>
    let (source, g) := resolveSource ids node g reference
    (source.map fun s => .positional [s], g)
  | .positional references =>
    let (sources, g) := resolveEach (resolveSource ids node) g references
    (some (.positional sources), g)
  | .named pins =>
    let (sources, g) := resolvePins (resolveSource ids node) g pins
    (some (.named sources), g)

/-- The outputs of a described node. Of several outputs without pins only the first counts. -/
def resolveOutputs (ids : BuiltIds) (node : String) (g : Graph) :
    PinsDescription → Option Outputs × Graph
  | .single reference =>
    let (target, g) := resolveTarget ids node g reference
    (target.map .single, g)
  | .positional [] => (none, g)
  | .positional (first :: rest) =>
    let g := g.noteIf (!rest.isEmpty) (.severalOutputs node first)
    let (target, g) := resolveTarget ids node g first
    (target.map .single, g)
  | .named pins =>
    let (targets, g) := resolvePins (resolveTarget ids node) g pins
    (some (.named targets), g)

/-- An optional part of a node, resolved. -/
def resolveOptional {α β : Type} (resolve : Graph → α → Option β × Graph) (g : Graph) :
    Option α → Option β × Graph
  | none => (none, g)
  | some a => resolve g a

/-- The graph with a node wired. -/
def wireStep (ids : BuiltIds) (g : Graph) (n : NodeDescription) : Graph :=
  match ids.lookup n.id with
  | none => g
  | some id =>
    let (inputs, g) := resolveOptional (resolveInputs ids n.id) g n.inputs
    let (outputs, g) := resolveOptional (resolveOutputs ids n.id) g n.outputs
    let g := inputs.elim g (g.wireInputs id)
    let g := outputs.elim g (g.wireOutputs id)
    n.comment.elim g (g.setComment id)

/-- A root; one that was not created is reported. -/
def resolveRoot (ids : BuiltIds) (g : Graph) (root : String) : Option NodeId × Graph :=
  match ids.lookup root with
  | some id => (some id, g)
  | none => (none, g.report (.unknownReference "roots" root))

/-- The roots of a description, and the graph with its nodes. -/
def build (d : Description) (catalogue : Catalogue) (g : Graph) : List NodeId × Graph :=
  let (ids, g) := d.createNodes catalogue g
  let g := d.nodes.foldl (wireStep ids) g
  resolveEach (resolveRoot ids) g d.roots

end Description

end SceneShading
