import SceneShading.Uniform

/-!
# Surface attributes

The colors of a material, and the textures bound to a unit. A texture is named by the image that
the device holds; only its target matters to program generation.
-/

namespace SceneShading

/-- The value `0.2`. -/
def Binary32.fifth : Binary32 := ⟨0x3e4ccccd⟩

/-- The value `0.8`. -/
def Binary32.fourFifths : Binary32 := ⟨0x3f4ccccd⟩

/-- The colors and the shininess of a surface, which shines at `12.5` by default. -/
structure Material where
  ambient : Vec4 Binary32 := ⟨.fifth, .fifth, .fifth, .one⟩
  diffuse : Vec4 Binary32 := ⟨.fourFifths, .fourFifths, .fourFifths, .one⟩
  specular : Vec4 Binary32 := ⟨.zero, .zero, .zero, .one⟩
  emission : Vec4 Binary32 := ⟨.zero, .zero, .zero, .one⟩
  shininess : Binary32 := ⟨0x41480000⟩
deriving Repr, BEq, Inhabited

namespace Material

/-- The uniforms of a material. -/
def uniformValues (m : Material) : List (String × UniformValue) :=
  [("uMaterialAmbient", .vec4 m.ambient), ("uMaterialDiffuse", .vec4 m.diffuse),
   ("uMaterialSpecular", .vec4 m.specular), ("uMaterialEmission", .vec4 m.emission),
   ("uMaterialShininess", .float m.shininess)]

end Material

/-- What a texture is sampled as. -/
inductive TextureTarget where
  | texture2D
  | cubeMap
deriving Repr, DecidableEq, Inhabited

namespace TextureTarget

/-- Every target. -/
def all : List TextureTarget := [texture2D, cubeMap]

/-- The name of a target. -/
def name : TextureTarget → String
  | texture2D => "Texture2D"
  | cubeMap => "CubeMap"

/-- The target of a name. -/
def ofName? (s : String) : Option TextureTarget := all.find? (·.name == s)

end TextureTarget

/-- A texture bound to a unit. -/
structure Texture where
  target : TextureTarget := .texture2D
  name : Option String := none
deriving Repr, BEq, Inhabited

/-- The name of the sampler of a texture unit. -/
def samplerName (unit : Nat) : String := "Texture" ++ toString unit

/-- The value of the sampler of a texture unit: the unit as a signed word of 32 bits. -/
def samplerValue (unit : Nat) : UniformValue := .int (Int.bmod unit 0x100000000)

namespace Texture

/-- The sampler of the unit. -/
def uniformValues (unit : Nat) : List (String × UniformValue) := [(samplerName unit, samplerValue unit)]

end Texture

end SceneShading
