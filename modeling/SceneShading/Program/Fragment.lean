import SceneShading.Graph.Builder
import SceneShading.Node.Pins
import SceneShading.Program.Roles

/-!
# Fragment graphs

The fragment graph of a surface: its diffuse color times the vertex color, lit and shadowed by every
light, plus its emission, times its textures, with premultiplied alpha. A surface without material
is drawn in magenta, so that it stands out.
-/

namespace SceneShading

/-- The shading function of a light. -/
def LightType.model : LightType → LightModel
  | .directional => .sun
  | .point => .point
  | .spot => .spot
  | .hemi => .hemi

/-- The light has a place, so that its direction differs from fragment to fragment. -/
def LightType.hasPlace : LightType → Bool
  | .spot | .point => true
  | .directional | .hemi => false

namespace LightModel

/-- The uniforms of a light that its shading reads, in the order of their pins. The ambient color
is used outside the shading function and comes first where no pin takes it. -/
def uniformFields : LightModel → List String
  | sun => ["ambient", "diffuse", "specular", "position", "matrix"]
  | point => ["ambient", "diffuse", "specular", "position", "attenuation", "matrix"]
  | spot =>
    ["ambient", "diffuse", "specular", "direction", "attenuation", "position", "spotCutOff",
     "spotBlend", "matrix", "invMatrix"]
  | hemi => ["ambient", "diffuse", "ground", "position", "matrix"]

end LightModel

namespace Light

/-- The type of a uniform of a light. -/
def uniformType : String → String
  | "direction" => "vec3"
  | "spotCutOff" | "spotBlend" => "float"
  | "matrix" | "invMatrix" => "mat4"
  | _ => "vec4"

/-- The pin of a uniform of a light. -/
def uniformPin (field : String) : String := "light" ++ field

end Light

/-- The type of the sampler of a texture. -/
def TextureTarget.samplerType : TextureTarget → String
  | .texture2D => "sampler2D"
  | .cubeMap => "samplerCube"

/-- The nodes of the uniforms of a material. -/
structure MaterialUniforms where
  ambient : NodeId
  diffuse : NodeId
  specular : NodeId
  emission : NodeId
  shininess : NodeId

namespace FragmentGraph

open Builder

/-- The uniforms of a material. -/
def materialUniforms : Builder MaterialUniforms := do
  let ambient ← uniform "vec4" "uMaterialAmbient"
  let diffuse ← uniform "vec4" "uMaterialDiffuse"
  let specular ← uniform "vec4" "uMaterialSpecular"
  let emission ← uniform "vec4" "uMaterialEmission"
  let shininess ← uniform "float" "uMaterialShininess"
  return { ambient, diffuse, specular, emission, shininess }

/-- The surface without material: one color. -/
def plain : Builder NodeId := do
  let magenta ← constant "vec4" "fofd" "vec4(1.0, 0.0, 1.0, 0.7)"
  let color ← node (.output .fragColor)
  let _ ← operation .setFromNode (.ofNodes [magenta]) (.single color)
  return color

/-- The code that colors a surface by its vertices. -/
def vertexColorCode : String :=
  "\n%color = %diffuse;\nif ( %hasVertexColor == 1.0)\n  %color *= %vertexColor.rgba;"

/-- The diffuse color times the color of the vertices, where the geometry has one. -/
def vertexColor (diffuse : NodeId) : Builder NodeId := do
  let vertexColor ← varying "vec4" "vVertexColor"
  let enabled ← uniform "float" "uArrayColorEnabled"
  let color ← temporary "vec4"
  let id ← operation (.inlineCode vertexColorCode)
    (Pins.inputs [("diffuse", diffuse), ("hasVertexColor", enabled), ("vertexColor", vertexColor)])
    (.named [("color", color)])
  comment id "diffuse color = diffuse color * vertex color"
  return color

/-! ## Geometry of the fragment -/

/-- The normal on the side that faces the viewer. -/
def frontNormal : Builder NodeId := do
  let front ← localNamed "vec3" "frontNormal"
  let viewNormal ← varying "vec3" "vViewNormal"
  let _ ← operation (.function .frontNormal) (Pins.inputs [("normal", viewNormal)])
    (.named [("normal", front)])
  return front

/-- The unit normal. -/
def normal : Builder NodeId :=
  orElse "normal" do
    let out ← localNamed "vec3" "normal"
    let front ← frontNormal
    let _ ← operation (.function .normalize) (Pins.inputs [("vec", front)]) (.named [("vec", out)])
    return out

/-- The unit vector from the fragment to the viewer. -/
def eyeVector : Builder NodeId :=
  orElse "eyeVector" do
    let normalized ← temporary "vec3"
    let eye ← temporary "vec3"
    let viewVertex ← varying "vec4" "vViewVertex"
    let _ ← operation .setFromNode (.ofNodes [viewVertex]) (.single eye)
    let _ ← operation (.function .normalize) (Pins.inputs [("vec", eye)])
      (.named [("vec", normalized)])
    let out ← localNamed "vec3" "eyeVector"
    let minusOne ← localValued "float" "-1.0"
    let _ ← operation .mult (.ofNodes [normalized, minusOne]) (.single out)
    return out

/-! ## Shadows -/

/-- The uniforms of a receiver that its filter reads. -/
def receiverFields : List String := ["bias", "exponent0", "exponent1", "epsilonVSM"]

/-- The pins of a receiver. -/
def receiverPins (light : Nat) : List String → Builder Pins
  | [] => return []
  | field :: fields => do
    let id ← uniform "float" (ShadowReceive.uniformName light field)
    let pins ← receiverPins light fields
    return ("shadow" ++ field, id) :: pins

/-- The uniforms of a shadow map: field, pin and type. -/
def shadowMapFields : List (String × String × String) :=
  [("viewMatrix", "shadowTextureViewMatrix", "mat4"),
   ("projectionMatrix", "shadowTextureProjectionMatrix", "mat4"),
   ("depthRange", "shadowTextureDepthRange", "vec4"),
   ("mapSize", "shadowTextureMapSize", "vec4")]

/-- The pins of the uniforms of a shadow map. -/
def shadowMapUniforms (unit : Nat) : List (String × String × String) → Builder Pins
  | [] => return []
  | (field, pin, type) :: fields => do
    let id ← uniform type (ShadowTexture.uniformName unit field)
    let pins ← shadowMapUniforms unit fields
    return (pin, id) :: pins

/-- The pins of a shadow map. -/
def shadowMapPins (unit : Nat) : Builder Pins := do
  let map ← sampler "sampler2D" (samplerName unit)
  let pins ← shadowMapUniforms unit shadowMapFields
  return pins ++ [("shadowTexture", map)]

/-- The pins with those of shadow maps; the last map keeps the pins that all maps share. -/
def addShadowMaps (pins : Pins) : List Nat → Builder Pins
  | [] => return pins
  | unit :: units => do
    let others ← shadowMapPins unit
    addShadowMaps (pins.setAll others) units

/-- The lit color in the shadows that a surface receives. -/
def shadowed (receiver : ShadowReceive) (units : List Nat) (lightPins : Pins) (lit : NodeId) :
    Builder NodeId := do
  let vertexWorld ← varying "vec3" "vModelVertex"
  let shadow ← temporary "float"
  let ofReceiver ← receiverPins receiver.light receiverFields
  let pins ← addShadowMaps (lightPins.setAll ofReceiver) units
  let _ ← operation (.shadowReceive receiver.config) (pins.set "vertexWorld" vertexWorld).inputs
    (.named [("float", shadow)])
  let out ← localNamed "vec3" "lightAndShadowTempOutput"
  let _ ← operation .mult (.ofNodes [lit, shadow]) (.single out)
  return out

/-! ## Lights -/

/-- The pins of the uniforms of a light. -/
def lightPins (number : Nat) : List String → Builder Pins
  | [] => return []
  | field :: fields => do
    let id ← uniform (Light.uniformType field) (Light.uniformName number field)
    let pins ← lightPins number fields
    return (Light.uniformPin field, id) :: pins

/-- The pins of a material. -/
def materialPins (material : MaterialUniforms) (diffuse : NodeId) : Pins :=
  [("materialambient", material.ambient), ("materialspecular", material.specular),
   ("materialemission", material.emission), ("materialshininess", material.shininess),
   ("materialdiffuse", diffuse)]

/-- The position of a light relative to the viewer, for lights that have a place. -/
def lightEyePos (type : LightType) (index : Nat) : Builder (Option NodeId) := do
  if type.hasPlace then
    let id ← localNamed "vec3" ("lightEyePos" ++ toString index)
    return some id
  else return none

/-- What a surface gets from one light: its color, in shadow or not, and its ambient part. -/
def lightTerms (roles : Roles) (material : MaterialUniforms) (diffuse : NodeId) (index : Nat)
    (light : Light) : Builder (List NodeId) := do
  let lit ← temporary "vec3"
  let model := light.type.model
  let ofLight ← lightPins light.number model.uniformFields
  let lighted ← localNamed "bool" ("lighted" ++ toString index)
  let eyePos ← lightEyePos light.type index
  let eyeDir ← localNamed "vec3" ("lightEyeDir" ++ toString index)
  let ndl ← localNamed "float" ("lightNDL" ++ toString index)
  let normal ← normal
  let eyeVector ← eyeVector
  let place : Pins := eyePos.toList.map ("lightEyePos", ·)
  let pins := (ofLight.setAll (materialPins material diffuse)).setAll <|
    [("lighted", lighted)] ++ place ++
      [("lightEyeDir", eyeDir), ("lightNDL", ndl), ("normal", normal), ("eyeVector", eyeVector)]
  let outputs := [("color", lit)] ++ place ++
    [("lightEyeDir", eyeDir), ("ndl", ndl), ("lighted", lighted)]
  let _ ← operation (.light model) pins.inputs (.named outputs)
  let term ← match roles.shadowOf light with
    | some (receiver, units) => shadowed receiver units pins lit
    | none => pure lit
  let ambient ← localNamed "vec3" "lightMatAmbientOutput"
  let lightAmbient ← uniform "vec4" (Light.uniformName light.number "ambient")
  let _ ← operation .mult (.ofNodes [material.ambient, lightAmbient]) (.single ambient)
  return [term, ambient]

/-- What a surface gets from several lights, numbered from an index. -/
def allLightTerms (roles : Roles) (material : MaterialUniforms) (diffuse : NodeId) :
    Nat → List Light → Builder (List NodeId)
  | _, [] => return []
  | index, light :: lights => do
    let terms ← lightTerms roles material diffuse index light
    let others ← allLightTerms roles material diffuse (index + 1) lights
    return terms ++ others

/-- The lit color of a surface; without lights it is the diffuse color. -/
def lighting (roles : Roles) (material : MaterialUniforms) (diffuse : NodeId) : Builder NodeId := do
  if roles.lights.isEmpty then return diffuse
  else
    let output ← temporary "vec3"
    let terms ← allLightTerms roles material diffuse 0 roles.lights
    let _ ← operation .add (.ofNodes terms) (.single output)
    return output

/-! ## Textures and alpha -/

/-- The texel of a texture. -/
def texel (unit : Nat) (texture : Texture) : Builder NodeId := do
  let sampler ← sampler texture.target.samplerType (samplerName unit)
  let uv ← varying "vec2" ("vTexCoord" ++ toString unit)
  let color ← temporary "vec4"
  let _ ← operation (.texture .rgba) (Pins.inputs [("sampler", sampler), ("uv", uv)])
    (.named [("color", color)])
  return color

/-- The texels of several textures. -/
def texels : List (Nat × Texture) → Builder (List NodeId)
  | [] => return []
  | (unit, texture) :: textures => do
    let first ← texel unit texture
    let others ← texels textures
    return first :: others

/-- The product of texels. -/
def texelProduct : List NodeId → Builder (Option NodeId)
  | [] => return none
  | [texel] => return some texel
  | texels => do
    let product ← localNamed "vec3" "texDiffuseAccum"
    let _ ← operation .mult (.ofNodes texels) (.single product)
    return some product

/-- The code that computes the alpha of a surface. A billboard discards what is transparent, so that
it does not write depth. -/
def alphaCode (hasTexel isBillboard : Bool) : String :=
  (if hasTexel then "%alpha = %color.a * %texelAlpha.a;" else "%alpha = %color.a;") ++
    (if isBillboard then "if ( %alpha == 0.0) discard;" else "")

/-- The alpha of a surface. -/
def alpha (isBillboard : Bool) (diffuse : NodeId) (texel : Option NodeId) : Builder NodeId := do
  let alpha ← temporary "float"
  let _ ← operation (.inlineCode (alphaCode texel.isSome isBillboard))
    (Pins.inputs ([("color", diffuse)] ++ texel.toList.map ("texelAlpha", ·)))
    (.named [("alpha", alpha)])
  return alpha

/-! ## The graph -/

/-- The surface with a material. -/
def surface (roles : Roles) : Builder NodeId := do
  let material ← materialUniforms
  let diffuse ← vertexColor material.diffuse
  let lit ← lighting roles material diffuse
  let color ← localValued "vec3" "vec3(0.0)"
  let _ ← operation .add (.ofNodes [lit, material.emission]) (.single color)
  let texels ← texels roles.textures
  let product ← texelProduct texels
  if let some texture := product then
    let _ ← operation (.inlineCode "%color.rgb *= %texture.rgb;")
      (Pins.inputs [("texture", texture)]) (.named [("color", color)])
  let alpha ← alpha roles.isBillboard material.diffuse texels.head?
  let premultiplied ← temporary "vec4"
  let _ ← operation .preMultAlpha (Pins.inputs [("color", color), ("alpha", alpha)])
    (.named [("color", premultiplied)])
  let fragColor ← node (.output .fragColor)
  let _ ← operation .setAlpha (Pins.inputs [("color", premultiplied), ("alpha", alpha)])
    (.named [("color", fragColor)])
  return fragColor

/-- The surface of roles, and the roots of its graph. -/
def build (roles : Roles) : Builder (List NodeId) := do
  let color ← if roles.material.isSome then surface roles else plain
  let name ← programName roles.programName
  return [color, name]

end FragmentGraph

end SceneShading
