import SceneShading.Description.Basic
import SceneShading.Json.Decode
import SceneShading.Json.Printer
import SceneShading.Json.Reader

/-!
# Descriptions in JSON

How a description is read from JSON and written to it. References are a string, an array of strings
or an object of strings; fields that hold nothing are left out when a description is written.
-/

namespace SceneShading

namespace NodeArg

/-- An argument in JSON: a truth value, a string, or a number written as an integer of 64 bits. -/
def ofJson : Json → Option NodeArg
  | .bool b => some (.bool b)
  | .text t => t.map .text
  | .number (.integer i) =>
    if -0x8000000000000000 ≤ i ∧ i < 0x8000000000000000 then some (.int (Int64.ofInt i)) else none
  | _ => none

/-- An argument as JSON. -/
def toJson : NodeArg → Json
  | bool b => .bool b
  | int i => .ofInt i.toInt
  | text s => .ofString s

end NodeArg

namespace PinsDescription

/-- References in JSON. -/
def ofJson : Json → Option PinsDescription
  | .text t => t.map .single
  | .array items => .positional <$> items.mapM Json.asText
  | .object members => do
    let named ← Json.namedMembers members
    let pins ← named.mapM fun m => m.2.asText.map (m.1, ·)
    return .named (.ofList pins)
  | _ => none

/-- References as JSON. -/
def toJson : PinsDescription → Json
  | single reference => .ofString reference
  | positional references => .ofStrings references
  | named pins => .ofMembers (pins.entries.map fun e => (e.1, .ofString e.2))

end PinsDescription

namespace NodeDescription

/-- The names of the fields in JSON. -/
def fieldNames : List String := ["id", "type", "args", "inputs", "outputs", "comment"]

/-- A node in JSON. -/
def ofJson (j : Json) : Option NodeDescription := do
  match ← j.recordFields fieldNames with
  | [id, nodeType, args, inputs, outputs, comment] =>
    return {
      id := ← Json.required Json.asText id
      nodeType := ← Json.required Json.asText nodeType
      args := ← Json.optional (Json.asListOf NodeArg.ofJson) [] args
      inputs := ← Json.optional (Json.asNullable PinsDescription.ofJson) none inputs
      outputs := ← Json.optional (Json.asNullable PinsDescription.ofJson) none outputs
      comment := ← Json.optional (Json.asNullable Json.asText) none comment }
  | _ => none

/-- A node as JSON. -/
def toJson (n : NodeDescription) : Json :=
  .ofMembers <|
    [("id", .ofString n.id), ("type", .ofString n.nodeType)] ++
      (if n.args.isEmpty then [] else [("args", .array (n.args.map NodeArg.toJson))]) ++
      n.inputs.toList.map (fun p => ("inputs", p.toJson)) ++
      n.outputs.toList.map (fun p => ("outputs", p.toJson)) ++
      n.comment.toList.map (fun c => ("comment", .ofString c))

end NodeDescription

namespace Description

/-- The names of the fields in JSON. -/
def fieldNames : List String := ["nodes", "roots"]

/-- A description in JSON. -/
def ofJson (j : Json) : Option Description := do
  match ← j.recordFields fieldNames with
  | [nodes, roots] =>
    return {
      nodes := ← Json.required (Json.asListOf NodeDescription.ofJson) nodes
      roots := ← Json.required (Json.asListOf Json.asText) roots }
  | _ => none

/-- A description as JSON. -/
def toJson (d : Description) : Json :=
  .ofMembers [("nodes", .array (d.nodes.map NodeDescription.toJson)),
    ("roots", .ofStrings d.roots)]

/-- The text of a description. -/
def render (d : Description) : String := d.toJson.pretty 0

/-- The description of a text, which may not be valid. -/
def read? (text : String) : Option Description := (Json.parse text).bind ofJson

/-- The valid description of a text. -/
def parse (text : String) : Except DescriptionError Description :=
  match read? text with
  | none => .error .malformed
  | some d =>
    match d.validate with
    | .ok () => .ok d
    | .error e => .error e

end Description

end SceneShading
