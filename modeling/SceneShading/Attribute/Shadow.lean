import SceneShading.Attribute.ShadowConfig
import SceneShading.Attribute.Surface

/-!
# Shadow attributes

A surface receives the shadow of a numbered light, or is drawn into a shadow map; a shadow map is a
texture that carries the matrices and the depth range it was drawn with.
-/

namespace SceneShading

/-- The value `0.001`. -/
def Binary32.thousandth : Binary32 := ⟨0x3a83126f⟩

/-- A surface that receives the shadow of a light. -/
structure ShadowReceive where
  light : Nat
  enabled : Bool := true
  config : ShadowConfig := {}
  bias : Binary32 := .thousandth
  exponent0 : Binary32 := .thousandth
  exponent1 : Binary32 := .thousandth
  epsilonVsm : Binary32 := .thousandth
deriving Repr, BEq, Inhabited

namespace ShadowReceive

/-- The name of a uniform of the receiver of a light. -/
def uniformName (light : Nat) (field : String) : String :=
  "uShadowReceive" ++ toString light ++ "_" ++ field

/-- The uniforms of a receiver. -/
def uniformValues (r : ShadowReceive) : List (String × UniformValue) :=
  if !r.enabled then []
  else
    [(uniformName r.light "bias", .float r.bias),
     (uniformName r.light "exponent0", .float r.exponent0),
     (uniformName r.light "exponent1", .float r.exponent1),
     (uniformName r.light "epsilonVSM", .float r.epsilonVsm)]

end ShadowReceive

/-- A surface that is drawn into a shadow map. -/
structure ShadowCast where
  enabled : Bool := false
  config : ShadowConfig := {}
deriving Repr, BEq, Inhabited

namespace ShadowCast

/-- The cast of a configuration. -/
def ofConfig (config : ShadowConfig) : ShadowCast := { enabled := true, config }

/-- The cast whose shadow map a receiver can filter. -/
def forReceiver (r : ShadowReceive) : ShadowCast := ofConfig r.config

end ShadowCast

/-- A shadow map bound to a texture unit. -/
structure ShadowTexture where
  light : Nat
  view : Mat4 Binary32 := Mat4.identity
  projection : Mat4 Binary32 := Mat4.identity
  depthRange : Vec4 Binary32 := ⟨.zero, .one, .one, .one⟩
  mapSize : Vec4 Binary32 := Vec4.zero
deriving Repr, BEq, Inhabited

namespace ShadowTexture

/-- The map with a size in texels, kept with its reciprocals. -/
def withTextureSize (t : ShadowTexture) (width height : Nat) : ShadowTexture :=
  let w := Binary32.ofFloat (Float.ofNat width)
  let h := Binary32.ofFloat (Float.ofNat height)
  { t with mapSize := ⟨w, h, Binary32.one / w, Binary32.one / h⟩ }

/-- The name of a uniform of the shadow map of a unit. -/
def uniformName (unit : Nat) (field : String) : String :=
  "uShadowTexture" ++ toString unit ++ "_" ++ field

/-- The uniforms of a shadow map. -/
def uniformValues (t : ShadowTexture) (unit : Nat) : List (String × UniformValue) :=
  [(uniformName unit "viewMatrix", .mat4 t.view),
   (uniformName unit "projectionMatrix", .mat4 t.projection),
   (uniformName unit "depthRange", .vec4 t.depthRange),
   (uniformName unit "mapSize", .vec4 t.mapSize),
   (samplerName unit, samplerValue unit)]

end ShadowTexture

end SceneShading
