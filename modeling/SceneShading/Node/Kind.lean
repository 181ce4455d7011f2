import SceneShading.Attribute.ShadowConfig

/-!
# Kinds of shading nodes

A node of a shading graph is a variable, a built-in output of the stage, a preprocessor definition,
or an operation. The type name of a kind is the name under which catalogues register it and
diagnostics mention it.
-/

namespace SceneShading

/-- Where a variable lives. -/
inductive VariableClass where
  /-- A local of `main`. -/
  | temporary
  /-- A constant local of `main`. -/
  | constant
  | uniform
  | attribute
  | varying
  | sampler
deriving Repr, DecidableEq, Inhabited

namespace VariableClass

/-- Every class. -/
def all : List VariableClass := [.temporary, .constant, .uniform, .attribute, .varying, .sampler]

/-- The name of a class. -/
def name : VariableClass → String
  | .temporary => "Variable"
  | .constant => "Constant"
  | .uniform => "Uniform"
  | .attribute => "Attribute"
  | .varying => "Varying"
  | .sampler => "Sampler"

/-- The class of a name. -/
def ofName? (s : String) : Option VariableClass := all.find? (·.name == s)

end VariableClass

/-- A variable: its class, type and name, the initial value of a local and the length of a uniform
array. -/
structure Variable where
  cls : VariableClass
  type : String
  name : String
  value : Option String := none
  size : Option Nat := none
deriving Repr, DecidableEq, Inhabited

namespace Variable

/-- The declaration inside `main`, for locals and constants. -/
def localDeclaration (v : Variable) : Option String :=
  let typed := v.type ++ " " ++ v.name
  let valued := match v.value with
    | some value => typed ++ " = " ++ value ++ ";"
    | none => typed ++ ";"
  match v.cls with
  | .temporary => some valued
  | .constant => some ("const " ++ valued)
  | _ => none

/-- The declaration at file scope, for everything that is no local. -/
def globalDeclaration (v : Variable) : Option String :=
  let typed := v.type ++ " " ++ v.name
  match v.cls with
  | .uniform =>
    match v.size with
    | some n => some ("uniform " ++ typed ++ "[" ++ toString n ++ "];")
    | none => some ("uniform " ++ typed ++ ";")
  | .sampler => some ("uniform " ++ typed ++ ";")
  | .attribute => some ("attribute " ++ typed ++ ";")
  | .varying => some ("varying " ++ typed ++ ";")
  | .temporary | .constant => none

/-- A variable is declared inside `main` or at file scope, never both. -/
theorem isSome_localDeclaration (v : Variable) :
    v.localDeclaration.isSome = v.globalDeclaration.isNone := by
  obtain ⟨cls, type, name, value, size⟩ := v
  cases cls <;> cases value <;> cases size <;> rfl

end Variable

/-- The built-in outputs of the stages. -/
inductive BuiltinOutput where
  | fragColor
  | position
  | pointSize
deriving Repr, DecidableEq, Inhabited

namespace BuiltinOutput

/-- The type name of the node. -/
def typeName : BuiltinOutput → String
  | fragColor => "glFragColor"
  | position => "glPosition"
  | pointSize => "glPointSize"

/-- The variable that the stage writes. -/
def variableName : BuiltinOutput → String
  | fragColor => "gl_FragColor"
  | position => "gl_Position"
  | pointSize => "gl_PointSize"

/-- The type of the variable. -/
def glslType : BuiltinOutput → String
  | fragColor | position => "vec4"
  | pointSize => "float"

end BuiltinOutput

/-- What a transformed vector is, which decides its fourth component. -/
inductive VectorRole where
  | position
  | direction
deriving Repr, DecidableEq, Inhabited

namespace VectorRole

/-- The name of a role. -/
def name : VectorRole → String
  | position => "Position"
  | direction => "Direction"

/-- The fourth component, as it is written. -/
def complement : VectorRole → String
  | position => "1."
  | direction => "0."

end VectorRole

/-- A product of a matrix and a vector. -/
structure MatrixMult where
  role : VectorRole
  /-- The fourth component is rebuilt even if the vector has one. -/
  forceComplement : Bool
  /-- The result does not keep the fourth component of the vector. -/
  overwriteW : Bool
  /-- The vector stands to the left of the matrix. -/
  inverse : Bool
deriving Repr, DecidableEq, Inhabited

namespace MatrixMult

/-- The product that transforms a position. -/
def position : MatrixMult := ⟨.position, false, true, false⟩

/-- The product that transforms a direction. -/
def direction : MatrixMult := ⟨.direction, true, true, false⟩

end MatrixMult

/-- The ways to read a texture. -/
inductive TextureFetch where
  | rgba
  | rgb
  | alpha
  | intensity
deriving Repr, DecidableEq, Inhabited

namespace TextureFetch

/-- The type name of the node. -/
def typeName : TextureFetch → String
  | rgba => "TextureRGBA"
  | rgb => "TextureRGB"
  | alpha => "TextureAlpha"
  | intensity => "TextureIntensity"

/-- The library function. -/
def function : TextureFetch → String
  | rgba => "textureRGBA"
  | rgb => "textureRGB"
  | alpha => "textureAlpha"
  | intensity => "textureIntensity"

end TextureFetch

/-- The light models that the library shades with. -/
inductive LightModel where
  | point
  | spot
  | sun
  | hemi
deriving Repr, DecidableEq, Inhabited

namespace LightModel

/-- The type name of the node. -/
def typeName : LightModel → String
  | point => "PointLight"
  | spot => "SpotLight"
  | sun => "SunLight"
  | hemi => "HemiLight"

/-- The library function. -/
def function : LightModel → String
  | point => "computePointLightShading"
  | spot => "computeSpotLightShading"
  | sun => "computeSunLightShading"
  | hemi => "computeHemiLightShading"

end LightModel

/-- The functions on colors and normals. -/
inductive ColorFunction where
  | normalize
  | srgbToLinear
  | linearToSrgb
  | frontNormal
  | encodeRgbm
  | decodeRgbm
deriving Repr, DecidableEq, Inhabited

namespace ColorFunction

/-- The type name of the node. -/
def typeName : ColorFunction → String
  | normalize => "Normalize"
  | srgbToLinear => "sRGBToLinear"
  | linearToSrgb => "LinearTosRGB"
  | frontNormal => "FrontNormal"
  | encodeRgbm => "EncodeRGBM"
  | decodeRgbm => "DecodeRGBM"

end ColorFunction

/-- What a node is. -/
inductive NodeKind where
  | var (v : Variable)
  | output (o : BuiltinOutput)
  | define (name value : String)
  | add
  | mult
  | setFromNode
  | matrixMult (m : MatrixMult)
  | inlineCode (code : String)
  | setAlpha
  | preMultAlpha
  | function (f : ColorFunction)
  | texture (fetch : TextureFetch)
  | light (model : LightModel)
  | morph
  | skinning
  | billboard
  | shadowReceive (config : ShadowConfig)
  | shadowCast (config : ShadowConfig)
deriving Repr, DecidableEq, Inhabited

namespace NodeKind

/-- The type name of a kind. -/
def typeName : NodeKind → String
  | var v => v.cls.name
  | output o => o.typeName
  | define .. => "Define"
  | add => "Add"
  | mult => "Mult"
  | setFromNode => "SetFromNode"
  | matrixMult m => "MatrixMult" ++ m.role.name
  | inlineCode _ => "InlineCode"
  | setAlpha => "SetAlpha"
  | preMultAlpha => "PreMultAlpha"
  | function f => f.typeName
  | texture t => t.typeName
  | light l => l.typeName
  | morph => "Morph"
  | skinning => "Skinning"
  | billboard => "Billboard"
  | shadowReceive _ => "ShadowReceive"
  | shadowCast _ => "ShadowCast"

/-- The variable of a variable node. -/
def declared? : NodeKind → Option Variable
  | var v => some v
  | _ => none

/-- The kind with another value, for variables and definitions. -/
def withValue? (value : String) : NodeKind → Option NodeKind
  | .var v => some (.var { v with value := some value })
  | .define name _ => some (.define name value)
  | _ => none

/-- The node is a built-in output, which nothing can be read from. -/
def isOutput : NodeKind → Bool
  | output _ => true
  | _ => false

end NodeKind

end SceneShading
