import SceneShading.Graph.Builder
import SceneShading.Node.Pins
import SceneShading.Program.Roles
import SceneShading.Text.Split

/-!
# Vertex graphs

The vertex graph that feeds a fragment graph. Attributes of the geometry are morphed, skinned and
normalized in the space of the model, each step only where its attribute is active; positions and
directions in model space and in view space are derived from the result on demand. Every value that
was derived once is found again under its name.
-/

namespace SceneShading.VertexGraph

open Builder

/-- A vertex attribute of the geometry that can be deformed: its name and type, the names of what is
derived from it, and how its vectors are transformed. -/
structure Channel where
  input : String
  type : String
  morphed : String
  skinned : String
  product : MatrixMult

/-- The positions of the vertices. -/
def vertexChannel : Channel := ⟨"Vertex", "vec3", "morphVertex", "skinVertex", .position⟩

/-- The normals of the vertices. -/
def normalChannel : Channel := ⟨"Normal", "vec3", "morphNormal", "skinNormal", .direction⟩

/-- The tangents of the vertices, with their handedness. -/
def tangentChannel : Channel := ⟨"Tangent", "vec4", "morphTangent", "skinTangent", .direction⟩

/-! ## Morphing -/

/-- The attribute has targets to blend. -/
def hasTargets (roles : Roles) (input : String) : Bool :=
  roles.morph.any fun m => decide (0 < m.targetCount) && m.hasTarget input

/-- The number of targets that are blended. -/
def blendedTargets (roles : Roles) : Nat :=
  roles.morph.elim 0 fun m => min m.targetCount maxMorphTargets

/-- The type of the targets of an attribute: those of tangents keep the handedness. -/
def targetType (input : String) : String := if input = "Tangent" then "vec4" else "vec3"

/-- The pins of the targets of an attribute, from an index on. -/
def targetPins (input : String) : List Nat → Builder Pins
  | [] => return []
  | i :: indices => do
    let id ← vertexAttribute (targetType input) (input ++ "_" ++ toString i)
    let pins ← targetPins input indices
    return (targetPin i, id) :: pins

/-- The attribute, blended with its targets if it has any. -/
def morphed (roles : Roles) (c : Channel) : Builder NodeId :=
  orElse c.morphed do
    let input ← vertexAttribute c.type c.input
    if hasTargets roles c.input then
      let out ← localNamed "vec3" c.morphed
      let weights ← uniform "vec4" "uTargetWeights"
      let targets ← targetPins c.input (List.range (blendedTargets roles))
      let _ ← operation .morph (Pins.inputs ([("vertex", input), ("weights", weights)] ++ targets))
        (.named [("out", out)])
      return out
    else return input

/-! ## Skinning -/

/-- The matrix of the bones of a vertex. -/
def boneMatrix (paletteSize : Nat) : Builder NodeId :=
  orElse "boneMatrix" do
    let matrix ← localNamed "mat4" "boneMatrix"
    let weights ← vertexAttribute "vec4" "Weights"
    let bones ← vertexAttribute "vec4" "Bones"
    let palette ← uniformArray "vec4" "uBones" paletteSize
    let _ ← operation .skinning
      (Pins.inputs [("weights", weights), ("bonesIndex", bones), ("matrixPalette", palette)])
      (.named [("mat4", matrix)])
    return matrix

/-- The morphed attribute, moved by the bones if there are any. -/
def skinned (roles : Roles) (limits : BoneLimits) (c : Channel) : Builder NodeId :=
  orElse c.skinned do
    let input ← morphed roles c
    match roles.skinning with
    | none => return input
    | some skin =>
      let matrix ← boneMatrix (skin.uniformSize limits)
      let out ← localNamed "vec3" c.skinned
      let _ ← operation (.matrixMult { c.product with inverse := true })
        (Pins.inputs [("matrix", matrix), ("vec", input)]) (.named [("vec", out)])
      return out

/-! ## Local space -/

/-- The deformed position. -/
def localVertex (roles : Roles) (limits : BoneLimits) : Builder NodeId :=
  skinned roles limits vertexChannel

/-- The deformed normal; it has unit length unless it is the normal of the geometry itself. -/
def localNormal (roles : Roles) (limits : BoneLimits) : Builder NodeId :=
  orElse "localNormal" do
    let normal ← skinned roles limits normalChannel
    let input ← vertexAttribute normalChannel.type normalChannel.input
    if normal = input then return normal
    else
      let out ← localNamed "vec3" "localNormal"
      let _ ← operation (.function .normalize) (Pins.inputs [("vec", normal)])
        (.named [("vec", out)])
      return out

/-- The deformed tangent with the handedness of the geometry. -/
def localTangent (roles : Roles) (limits : BoneLimits) : Builder NodeId :=
  orElse "localTangent" do
    let input ← vertexAttribute tangentChannel.type tangentChannel.input
    let tangent ← skinned roles limits tangentChannel
    if tangent = input then return tangent
    else
      let normalized ← temporary "vec3"
      let _ ← operation (.function .normalize) (Pins.inputs [("vec", tangent)])
        (.named [("vec", normalized)])
      let out ← localNamed "vec4" "localTangent"
      let _ ← operation .setAlpha (Pins.inputs [("color", normalized), ("alpha", input)])
        (.named [("color", out)])
      return out

/-! ## Model space and view space -/

/-- A vector of local space in another space, found under its name from then on. -/
def transformed (name type : String) (product : MatrixMult) (matrix : String)
    (source : Builder NodeId) : Builder NodeId :=
  orElse name do
    let vector ← source
    let out ← localNamed type name
    let matrix ← uniform "mat4" matrix
    let _ ← operation (.matrixMult product) (Pins.inputs [("matrix", matrix), ("vec", vector)])
      (.named [("vec", out)])
    return out

/-- The product that transforms a direction and keeps its fourth component. -/
def keptDirection : MatrixMult := { MatrixMult.direction with overwriteW := false }

/-- The position in view space. -/
def viewVertex (roles : Roles) (limits : BoneLimits) : Builder NodeId :=
  transformed "viewVertex" "vec4" .position "uModelViewMatrix" (localVertex roles limits)

/-- The value that a varying of a name carries. -/
def varyingSource (roles : Roles) (limits : BoneLimits) : String → Option (Builder NodeId)
  | "vModelVertex" =>
    some (transformed "modelVertex" "vec3" .position "uModelMatrix" (localVertex roles limits))
  | "vModelNormal" =>
    some (transformed "modelNormal" "vec3" .direction "uModelMatrix" (localNormal roles limits))
  | "vModelTangent" =>
    some (transformed "modelTangent" "vec4" keptDirection "uModelMatrix"
      (localTangent roles limits))
  | "vViewVertex" => some (viewVertex roles limits)
  | "vViewNormal" =>
    some (transformed "viewNormal" "vec3" .direction "uModelViewNormalMatrix"
      (localNormal roles limits))
  | "vViewTangent" =>
    some (transformed "viewTangent" "vec4" keptDirection "uModelViewNormalMatrix"
      (localTangent roles limits))
  | _ => none

/-! ## Outputs -/

/-- The position of the vertex on the screen. -/
def position (roles : Roles) (limits : BoneLimits) : Builder NodeId := do
  let out ← node (.output .position)
  if roles.isBillboard then
    let vertex ← vertexAttribute "vec3" "Vertex"
    let modelView ← uniform "mat4" "uModelViewMatrix"
    let projection ← uniform "mat4" "uProjectionMatrix"
    let _ ← operation .billboard
      (Pins.inputs [("Vertex", vertex), ("ModelViewMatrix", modelView),
        ("ProjectionMatrix", projection)])
      (.named [("vec", out)])
    return out
  else
    let projection ← uniform "mat4" "uProjectionMatrix"
    let vertex ← viewVertex roles limits
    let _ ← operation (.matrixMult .position)
      (Pins.inputs [("matrix", projection), ("vec", vertex)]) (.named [("vec", out)])
    return out

/-- The code that passes the color of a vertex on; geometry without colors is white. -/
def vertexColorCode : String := "%vcolor = %venabled == 1.0 ? %acolor : vec4(1.0, 1.0, 1.0, 1.0);"

/-- The varying of a name is written, if it carries geometry or the color of the vertices. -/
def writeVarying (roles : Roles) (limits : BoneLimits) (name : String) (id : NodeId) :
    Builder Unit := do
  if let some source := varyingSource roles limits name then
    let value ← source
    let _ ← operation .setFromNode (.ofNodes [value]) (.single id)
  if name = "vVertexColor" then
    let enabled ← uniform "float" "uArrayColorEnabled"
    let color ← vertexAttribute "vec4" "Color"
    let _ ← operation (.inlineCode vertexColorCode)
      (Pins.inputs [("venabled", enabled), ("acolor", color)]) (.named [("vcolor", id)])

/-- Texture coordinates are what every varying carries whose name contains this. -/
def texCoordMark : String := "vTexCoord"

/-- The attribute of texture coordinates: the name of the varying without its first byte, which has
to be a character of its own. -/
def texCoordAttribute? (name : String) : Option String :=
  match name.toList with
  | c :: cs => if c.utf8Size = 1 then some (String.ofList cs) else none
  | [] => none

/-- The varying of a name is written, if it carries texture coordinates. -/
def writeTexCoord (name : String) (id : NodeId) : Builder Unit := do
  if Text.occursIn texCoordMark.toList name.toList then
    match texCoordAttribute? name with
    | none => fail (.cutCharacter name)
    | some input =>
      let coordinates ← vertexAttribute "vec2" input
      let _ ← operation .setFromNode (.ofNodes [coordinates]) (.single id)

/-- All varyings are written that carry geometry or colors. -/
def writeVaryings (roles : Roles) (limits : BoneLimits) : List (String × NodeId) → Builder Unit
  | [] => return ()
  | (name, id) :: varyings => do
    writeVarying roles limits name id
    writeVaryings roles limits varyings

/-- All varyings are written that carry texture coordinates. -/
def writeTexCoords : List (String × NodeId) → Builder Unit
  | [] => return ()
  | (name, id) :: varyings => do
    writeTexCoord name id
    writeTexCoords varyings

/-- The vertex stage that writes varyings, and the roots of its graph. The point size comes first,
then the position, then the varyings. -/
def build (roles : Roles) (limits : BoneLimits) (varyings : List (String × NodeId)) :
    Builder (List NodeId) := do
  let pointSize ← node (.output .pointSize)
  let one ← constant "float" "floatWhite" "float(1.0)"
  let _ ← operation .setFromNode (.ofNodes [one]) (.single pointSize)
  let position ← position roles limits
  writeVaryings roles limits varyings
  writeTexCoords varyings
  let name ← programName roles.programName
  return [pointSize, position] ++ varyings.map (·.2) ++ [name]

end SceneShading.VertexGraph
