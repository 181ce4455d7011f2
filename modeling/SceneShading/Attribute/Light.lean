import SceneShading.Attribute.Surface

/-!
# Lights

A light has a number, a model and the parameters of every model. Choosing a model resets the
parameters that the model gives a meaning of its own. The uniforms of a light carry its number;
a light that is switched off has none.
-/

namespace SceneShading

/-- The light models. -/
inductive LightType where
  | directional
  | point
  | spot
  | hemi
deriving Repr, DecidableEq, Inhabited

namespace LightType

/-- Every model. -/
def all : List LightType := [directional, point, spot, hemi]

/-- The name of a model. -/
def name : LightType → String
  | directional => "Directional"
  | point => "Point"
  | spot => "Spot"
  | hemi => "Hemi"

/-- The model of a name. -/
def ofName? (s : String) : Option LightType := all.find? (·.name == s)

end LightType

/-- A position without a place, along the upward axis of depth. -/
def towardsViewer : Vec4 Binary32 := ⟨.zero, .zero, .one, .zero⟩

/-- The position at the origin. -/
def atOrigin : Vec4 Binary32 := ⟨.zero, .zero, .zero, .one⟩

/-- The direction away from the viewer. -/
def awayFromViewer : Vec3 Binary32 := ⟨.zero, .zero, .negOne⟩

/-- A light. The cutoff is half the angle of the cone, in degrees. -/
structure Light where
  number : Nat
  type : LightType := .directional
  enabled : Bool := true
  ambient : Vec4 Binary32 := ⟨.fifth, .fifth, .fifth, .one⟩
  diffuse : Vec4 Binary32 := ⟨.fourFifths, .fourFifths, .fourFifths, .one⟩
  specular : Vec4 Binary32 := ⟨.fifth, .fifth, .fifth, .one⟩
  position : Vec4 Binary32 := towardsViewer
  direction : Vec3 Binary32 := awayFromViewer
  spotCutoff : Binary32 := ⟨0x43340000⟩
  spotBlend : Binary32 := ⟨0x3c23d70a⟩
  attenuation : Vec4 Binary32 := ⟨.one, .zero, .zero, .zero⟩
  ground : Vec4 Binary32 := ⟨.fifth, .fifth, .fifth, .negOne⟩
  matrix : Mat4 Binary32 := Mat4.identity
deriving Repr, BEq, Inhabited

/-- The matrix with rows and columns exchanged. -/
def Mat4.transpose {α : Type} (m : Mat4 α) : Mat4 α :=
  ⟨⟨m.xAxis.x, m.yAxis.x, m.zAxis.x, m.wAxis.x⟩, ⟨m.xAxis.y, m.yAxis.y, m.zAxis.y, m.wAxis.y⟩,
   ⟨m.xAxis.z, m.yAxis.z, m.zAxis.z, m.wAxis.z⟩, ⟨m.xAxis.w, m.yAxis.w, m.zAxis.w, m.wAxis.w⟩⟩

namespace Light

/-- The light with another model. -/
def withType (l : Light) (type : LightType) : Light :=
  let facing (w : Binary32) : Vec4 Binary32 := { l.ground with w }
  match type with
  | .spot =>
    { l with
      type
      position := atOrigin
      direction := awayFromViewer
      ground := facing .negOne
      spotCutoff := ⟨0x42b40000⟩ }
  | .point =>
    { l with type, position := atOrigin, direction := awayFromViewer, ground := facing .negOne }
  | .directional =>
    { l with type, position := towardsViewer, spotCutoff := ⟨0x43340000⟩, ground := facing .negOne }
  | .hemi =>
    { l with type, position := towardsViewer, spotCutoff := ⟨0x43340000⟩, ground := facing .one }

/-- The name of a uniform of the light. -/
def uniformName (number : Nat) (field : String) : String :=
  "uLight" ++ toString number ++ "_" ++ field

/-- The transposed inverse of the matrix without its translation. -/
def normalMatrix (l : Light) : Mat4 Binary32 :=
  { l.matrix with wAxis := ⟨.zero, .zero, .zero, .one⟩ }.inverse.transpose

/-- The uniforms of a light. -/
def uniformValues (l : Light) : List (String × UniformValue) :=
  if !l.enabled then []
  else
    let cosine := l.spotCutoff.toRadians.cos
    let cone : List (String × UniformValue) :=
      [("spotCutOff", .float cosine), ("spotBlend", .float ((Binary32.one - cosine) * l.spotBlend)),
       ("direction", .vec3 l.direction)]
    let fields : List (String × UniformValue) :=
      [("position", .vec4 l.position)] ++
      (if l.type = .spot then cone else []) ++
      (if l.type = .hemi then [("ground", .vec4 l.ground)] else []) ++
      [("attenuation", .vec4 l.attenuation), ("diffuse", .vec4 l.diffuse),
       ("specular", .vec4 l.specular), ("ambient", .vec4 l.ambient), ("matrix", .mat4 l.matrix),
       ("invMatrix", .mat4 l.normalMatrix)]
    fields.map fun f => (uniformName l.number f.1, f.2)

end Light

end SceneShading
