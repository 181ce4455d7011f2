import SceneShading.Numeric.Binary32

/-!
# Attributes of the fixed pipeline

Face culling, blending and the depth test reach the graphics device as they are and leave the
generated programs alone. Billboarding is a switch that the vertex stage reads.
-/

namespace SceneShading

/-- The faces that are culled. -/
inductive CullMode where
  | front
  | back
  | frontAndBack
deriving Repr, DecidableEq, Inhabited

namespace CullMode

/-- Every mode. -/
def all : List CullMode := [front, back, frontAndBack]

/-- The name of a mode. -/
def name : CullMode → String
  | front => "Front"
  | back => "Back"
  | frontAndBack => "FrontAndBack"

/-- The mode of a name. -/
def ofName? (s : String) : Option CullMode := all.find? (·.name == s)

end CullMode

/-- Face culling. -/
structure CullFace where
  mode : CullMode := .back
deriving Repr, BEq, Inhabited

/-- A factor of the blending equation. -/
inductive BlendFactor where
  | zero
  | one
  | srcAlpha
  | oneMinusSrcAlpha
  | dstAlpha
  | oneMinusDstAlpha
deriving Repr, DecidableEq, Inhabited

namespace BlendFactor

/-- Every factor. -/
def all : List BlendFactor := [zero, one, srcAlpha, oneMinusSrcAlpha, dstAlpha, oneMinusDstAlpha]

/-- The name of a factor. -/
def name : BlendFactor → String
  | zero => "Zero"
  | one => "One"
  | srcAlpha => "SrcAlpha"
  | oneMinusSrcAlpha => "OneMinusSrcAlpha"
  | dstAlpha => "DstAlpha"
  | oneMinusDstAlpha => "OneMinusDstAlpha"

/-- The factor of a name. -/
def ofName? (s : String) : Option BlendFactor := all.find? (·.name == s)

end BlendFactor

/-- The blending equation. -/
structure BlendFunc where
  src : BlendFactor := .one
  dst : BlendFactor := .zero
deriving Repr, BEq, Inhabited

namespace BlendFunc

/-- Blending for colors that are multiplied by their alpha. -/
def premultiplied : BlendFunc := ⟨.one, .oneMinusSrcAlpha⟩

end BlendFunc

/-- The comparison of the depth test. -/
inductive DepthFunc where
  | never
  | less
  | equal
  | lessEqual
  | greater
  | always
deriving Repr, DecidableEq, Inhabited

namespace DepthFunc

/-- Every comparison. -/
def all : List DepthFunc := [never, less, equal, lessEqual, greater, always]

/-- The name of a comparison. -/
def name : DepthFunc → String
  | never => "Never"
  | less => "Less"
  | equal => "Equal"
  | lessEqual => "LessEqual"
  | greater => "Greater"
  | always => "Always"

/-- The comparison of a name. -/
def ofName? (s : String) : Option DepthFunc := all.find? (·.name == s)

end DepthFunc

/-- The depth test. -/
structure Depth where
  func : DepthFunc := .less
  writeMask : Bool := true
  near : Binary32 := .zero
  far : Binary32 := .one
deriving Repr, BEq, Inhabited

/-- Geometry that faces the viewer. -/
structure Billboard where
  enabled : Bool := true
deriving Repr, BEq, Inhabited

end SceneShading
