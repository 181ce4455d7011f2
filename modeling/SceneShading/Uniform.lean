import SceneShading.Numeric.Vector

/-!
# Uniforms

The values a program is given from outside, and the types they are declared with.
-/

namespace SceneShading

/-- The type of a uniform declaration. -/
inductive UniformType where
  | float
  | int
  | vec2
  | vec3
  | vec4
  | mat3
  | mat4
  | sampler2D
  | samplerCube
deriving Repr, DecidableEq, Inhabited

namespace UniformType

/-- Every type. -/
def all : List UniformType := [float, int, vec2, vec3, vec4, mat3, mat4, sampler2D, samplerCube]

/-- The name of a type in descriptions. -/
def name : UniformType → String
  | float => "Float"
  | int => "Int"
  | vec2 => "Vec2"
  | vec3 => "Vec3"
  | vec4 => "Vec4"
  | mat3 => "Mat3"
  | mat4 => "Mat4"
  | sampler2D => "Sampler2D"
  | samplerCube => "SamplerCube"

/-- The spelling of a type in a program. -/
def glsl : UniformType → String
  | float => "float"
  | int => "int"
  | vec2 => "vec2"
  | vec3 => "vec3"
  | vec4 => "vec4"
  | mat3 => "mat3"
  | mat4 => "mat4"
  | sampler2D => "sampler2D"
  | samplerCube => "samplerCube"

/-- The type of a name. -/
def ofName? (s : String) : Option UniformType := all.find? (·.name == s)

end UniformType

/-- The value of a uniform. -/
inductive UniformValue where
  | float (value : Binary32)
  | int (value : Int)
  | vec2 (value : Vec2 Binary32)
  | vec3 (value : Vec3 Binary32)
  | vec4 (value : Vec4 Binary32)
  | mat4 (value : Mat4 Binary32)
  | vec4Array (values : List (Vec4 Binary32))
deriving Repr, Inhabited

namespace UniformValue

/-- The type that a value fits; an array fits its element type. -/
def type : UniformValue → UniformType
  | float _ => .float
  | int _ => .int
  | vec2 _ => .vec2
  | vec3 _ => .vec3
  | vec4 _ => .vec4
  | mat4 _ => .mat4
  | vec4Array _ => .vec4

end UniformValue

end SceneShading
