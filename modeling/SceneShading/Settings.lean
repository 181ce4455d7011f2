import SceneShading.Attribute.Kind
import SceneShading.Json.Decode

/-!
# Settings

The options that all programs of a renderer share. Settings are read from a JSON record whose
fields all have defaults.
-/

namespace SceneShading

/-- The default precision of floating point numbers in a program. -/
inductive FloatPrecision where
  | auto
  | high
  | medium
  | low
deriving Repr, DecidableEq, Inhabited

namespace FloatPrecision

/-- Every precision. -/
def all : List FloatPrecision := [auto, high, medium, low]

/-- The name of a precision. -/
def name : FloatPrecision → String
  | auto => "Auto"
  | high => "High"
  | medium => "Medium"
  | low => "Low"

/-- The precision of a name. -/
def ofName? (s : String) : Option FloatPrecision := all.find? (·.name == s)

/-- The statement that declares a precision; `auto` leaves the choice to the device. -/
def declaration : FloatPrecision → String
  | auto => "#ifdef GL_FRAGMENT_PRECISION_HIGH\n precision highp float;\n #else\n" ++
      " precision mediump float;\n#endif"
  | high => "precision highp float;"
  | medium => "precision mediump float;"
  | low => "precision lowp float;"

end FloatPrecision

/-- The options of program generation. -/
structure Settings where
  /-- The language version of the programs. -/
  glslVersion : String := "100"
  precision : FloatPrecision := .auto
  /-- Comments before each call name its operands and their types. -/
  debugNodes : Bool := false
  /-- Vertex programs declare their position invariant. -/
  invariantPosition : Bool := false
  /-- The kinds that take part in program generation. -/
  acceptedKinds : List Kind := Kind.shaderDefaults
  /-- The cap on the length of the bone array. -/
  boneCap : Option Nat := none
deriving Repr, DecidableEq, Inhabited

namespace Settings

/-- The kind takes part in program generation. -/
def accepts (s : Settings) (kind : Kind) : Bool := s.acceptedKinds.contains kind

/-- The names of the fields in JSON. -/
def fieldNames : List String :=
  ["glsl_version", "precision", "debug_shader_nodes", "invariant_position", "accepted_attributes",
   "max_bone_uniform_allowed"]

/-- Settings in JSON. -/
def ofJson (j : Json) : Option Settings := do
  let fields ← j.recordFields fieldNames
  match fields with
  | [version, precision, debug, invariant, accepted, cap] =>
    let d : Settings := {}
    return {
      glslVersion := ← Json.optional Json.asText d.glslVersion version
      precision := ← Json.optional (·.asChoice.bind FloatPrecision.ofName?) d.precision precision
      debugNodes := ← Json.optional Json.asBool d.debugNodes debug
      invariantPosition := ← Json.optional Json.asBool d.invariantPosition invariant
      acceptedKinds := ←
        Json.optional (Json.asListOf (·.asChoice.bind Kind.ofName?)) d.acceptedKinds accepted
      boneCap := ← Json.optional (Json.asNullable (Json.asNatBelow 0x100000000)) d.boneCap cap }
  | _ => none

/-- Settings as JSON. -/
def toJson (s : Settings) : Json :=
  .ofMembers [
    ("glsl_version", .ofString s.glslVersion),
    ("precision", .ofString s.precision.name),
    ("debug_shader_nodes", .bool s.debugNodes),
    ("invariant_position", .bool s.invariantPosition),
    ("accepted_attributes", .ofStrings (s.acceptedKinds.map Kind.name)),
    ("max_bone_uniform_allowed", .ofOption .ofNat s.boneCap)]

end Settings

end SceneShading
