import SceneShading.Bounds.Sphere
import SceneShading.Json.Decode
import SceneShading.Json.Token
import SceneShading.Uniform

/-!
# Snapshots of numbers and volumes

A snapshot is a value written as JSON for a tool that inspects or drives a renderer. Single
precision numbers are written as the eight digits of their bits, so that nothing is lost; all
patterns that are not numbers are written alike. Reading is lenient: a member that is absent, or
has another form than expected, stands for a default.
-/

namespace SceneShading

namespace Json

/-! ## Lenient reading -/

/-- The member of an object under a name; `null` if there is none. -/
def member (j : Json) (name : String) : Json :=
  match j with
  | .object ms => ((ms.find? fun m => m.1 == some name).map (·.2)).getD .null
  | _ => .null

/-- True of `null`. -/
def isNull : Json → Bool
  | .null => true
  | _ => false

/-- A value that is not `null`. -/
def present? (j : Json) : Option Json := if j.isNull then none else some j

/-- The member of an object under a name, unless it is `null`. -/
def member? (j : Json) (name : String) : Option Json := (j.member name).present?

/-- The items of an array; nothing else has items. -/
def items : Json → List Json
  | .array xs => xs
  | _ => []

/-- A text; anything else reads as the empty one. -/
def textOrEmpty (j : Json) : String := j.asText.getD ""

/-- The text of a member. -/
def textMember? (j : Json) (name : String) : Option String := (j.member name).asText

/-- The texts of an array. -/
def texts (j : Json) : List String := j.items.map textOrEmpty

/-- An integer; anything else reads as zero. -/
def intOrZero (j : Json) : Int := j.asInt.getD 0

/-- The natural number of a member. -/
def natMember? (j : Json) (name : String) : Option Nat := (j.member name).asInt.map Int.toNat

/-- The truth value of a member. -/
def boolMember (j : Json) (name : String) (default : Bool) : Bool :=
  (j.member name).asBool.getD default

/-- A choice given by its name. -/
def choiceMember {α : Type} (j : Json) (name : String) (ofName? : String → Option α)
    (default : α) : α := ((j.textMember? name).bind ofName?).getD default

end Json

/-! ## Numbers -/

/-- The number that hexadecimal digits spell. -/
def ofHexDigits (s : String) : Nat :=
  s.toList.foldl (fun n c => n * 16 + (Json.Token.hexValue c).getD 0) 0

/-- A number with at least so many hexadecimal digits. -/
def toHexDigits (digits n : Nat) : String :=
  let ds := Nat.toDigits 16 n
  String.ofList (List.replicate (digits - ds.length) '0' ++ ds)

namespace Binary32

/-- A number, or the digits of its bits. -/
def ofSnapshot : Json → Binary32
  | .number (.integer i) => .ofFloat (Float.ofInt i)
  | .number (.decimal negative mantissa exponent) =>
    let x := Float.ofScientific mantissa (decide (exponent < 0)) exponent.natAbs
    .ofFloat (if negative then -x else x)
  | .text (some s) => ⟨UInt32.ofNat (ofHexDigits s)⟩
  | _ => .zero

/-- The digits of the bits. -/
def snapshot (x : Binary32) : Json :=
  .ofString (if x.isNaN then "nan" else toHexDigits 8 x.bits.toNat)

/-- Several numbers. -/
def snapshots (xs : List Binary32) : Json := .array (xs.map snapshot)

end Binary32

/-- Two numbers; any other value reads as zero. -/
def Vec2.ofSnapshot (j : Json) : Vec2 Binary32 :=
  match j.items.map Binary32.ofSnapshot with
  | [x, y] => ⟨x, y⟩
  | _ => ⟨.zero, .zero⟩

/-- Three numbers; any other value reads as zero. -/
def Vec3.ofSnapshot (j : Json) : Vec3 Binary32 :=
  match j.items.map Binary32.ofSnapshot with
  | [x, y, z] => ⟨x, y, z⟩
  | _ => Vec3.zero

/-- Four components; any other list reads as zero. -/
def Vec4.ofComponents : List Binary32 → Vec4 Binary32
  | [x, y, z, w] => ⟨x, y, z, w⟩
  | _ => Vec4.zero

/-- Four numbers; any other value reads as zero. -/
def Vec4.ofSnapshot (j : Json) : Vec4 Binary32 :=
  Vec4.ofComponents (j.items.map Binary32.ofSnapshot)

/-- Sixteen numbers, column after column. -/
def Mat4.ofSnapshot (j : Json) : Mat4 Binary32 :=
  let xs := j.items.map Binary32.ofSnapshot
  ⟨.ofComponents (xs.take 4), .ofComponents ((xs.drop 4).take 4),
   .ofComponents ((xs.drop 8).take 4), .ofComponents (xs.drop 12)⟩

/-- Three numbers. -/
def Vec3.snapshot (v : Vec3 Binary32) : Json := Binary32.snapshots v.toList

/-- Four numbers. -/
def Vec4.snapshot (v : Vec4 Binary32) : Json := Binary32.snapshots v.toList

/-- Sixteen numbers, column after column. -/
def Mat4.snapshot (m : Mat4 Binary32) : Json := Binary32.snapshots m.toList

/-! ## Volumes and uniforms -/

/-- A box with what is derived from it. -/
def Box.snapshot (b : Box Binary32) : Json :=
  .ofMembers [("min", b.min.snapshot), ("max", b.max.snapshot), ("valid", .bool b.isValid),
    ("center", b.center.snapshot), ("radius", b.radius.snapshot),
    ("radius2", b.radius2.snapshot)]

/-- A sphere with what is derived from it. -/
def Sphere.snapshot (s : Sphere Binary32) : Json :=
  .ofMembers [("center", s.center.snapshot), ("radius", s.radius.snapshot),
    ("valid", .bool s.isValid), ("radius2", s.radius2.snapshot)]

/-- A sphere; without a radius it is the one that holds nothing. -/
def Sphere.ofSnapshot (j : Json) : Sphere Binary32 :=
  match j.member? "radius" with
  | none => Sphere.invalid
  | some radius => ⟨.ofSnapshot (j.member "center"), .ofSnapshot radius⟩

namespace UniformValue

/-- The value under the name of its form. -/
def snapshot : UniformValue → Json
  | .float f => .ofMembers [("Float", f.snapshot)]
  | .int i => .ofMembers [("Int", .ofInt i)]
  | .vec2 v => .ofMembers [("Vec2", Binary32.snapshots v.toList)]
  | .vec3 v => .ofMembers [("Vec3", v.snapshot)]
  | .vec4 v => .ofMembers [("Vec4", v.snapshot)]
  | .mat4 m => .ofMembers [("Mat4", m.snapshot)]
  | .vec4Array vs => .ofMembers [("Vec4Array", .array (vs.map Vec4.snapshot))]

/-- The value under the name of its form; any other value reads as the integer zero. -/
def ofSnapshot (j : Json) : UniformValue :=
  match j with
  | .object [(some "Float", v)] => .float (.ofSnapshot v)
  | .object [(some "Int", v)] => .int v.intOrZero
  | .object [(some "Vec2", v)] => .vec2 (.ofSnapshot v)
  | .object [(some "Vec3", v)] => .vec3 (.ofSnapshot v)
  | .object [(some "Vec4", v)] => .vec4 (.ofSnapshot v)
  | .object [(some "Mat4", v)] => .mat4 (.ofSnapshot v)
  | .object [(some "Vec4Array", v)] => .vec4Array (v.items.map Vec4.ofSnapshot)
  | _ => .int 0

end UniformValue

end SceneShading
