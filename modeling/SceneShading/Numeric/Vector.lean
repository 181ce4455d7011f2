import SceneShading.Numeric.Binary32

/-!
# Vectors and matrices

Vectors of two, three and four components, and four by four matrices stored by columns. Every
sum of products is taken from the left in component order, so that rounding is part of the
definition.
-/

namespace SceneShading

/-- A pair of components. -/
structure Vec2 (α : Type) where
  x : α
  y : α
deriving Repr, BEq, Inhabited

/-- Three components. -/
structure Vec3 (α : Type) where
  x : α
  y : α
  z : α
deriving Repr, BEq, Inhabited

/-- Four components. -/
structure Vec4 (α : Type) where
  x : α
  y : α
  z : α
  w : α
deriving Repr, BEq, Inhabited

/-- A four by four matrix, by columns. -/
structure Mat4 (α : Type) where
  xAxis : Vec4 α
  yAxis : Vec4 α
  zAxis : Vec4 α
  wAxis : Vec4 α
deriving Repr, BEq, Inhabited

namespace Vec2

/-- The components in order. -/
def toList {α : Type} (v : Vec2 α) : List α := [v.x, v.y]

end Vec2

namespace Vec3

variable {α : Type}

/-- The components in order. -/
def toList (v : Vec3 α) : List α := [v.x, v.y, v.z]

/-- The same value in every component. -/
def splat (a : α) : Vec3 α := ⟨a, a, a⟩

/-- A function on every component. -/
def map {β : Type} (f : α → β) (v : Vec3 α) : Vec3 β := ⟨f v.x, f v.y, f v.z⟩

/-- A function on every pair of components. -/
def zipWith {β γ : Type} (f : α → β → γ) (v : Vec3 α) (w : Vec3 β) : Vec3 γ :=
  ⟨f v.x w.x, f v.y w.y, f v.z w.z⟩

variable [Scalar α]

instance : Add (Vec3 α) := ⟨zipWith (· + ·)⟩

instance : Sub (Vec3 α) := ⟨zipWith (· - ·)⟩

/-- Every component times a factor. -/
def scale (v : Vec3 α) (s : α) : Vec3 α := v.map (· * s)

/-- The origin. -/
def zero : Vec3 α := splat Scalar.zero

/-- The component-wise selection of the smaller value. -/
def least (v w : Vec3 α) : Vec3 α := zipWith Scalar.least v w

/-- The component-wise selection of the larger value. -/
def greatest (v w : Vec3 α) : Vec3 α := zipWith Scalar.greatest v w

/-- Below or equal in every component. -/
def allLe (v w : Vec3 α) : Bool := Scalar.le v.x w.x && Scalar.le v.y w.y && Scalar.le v.z w.z

/-- The scalar product. -/
def dot (v w : Vec3 α) : α := v.x * w.x + v.y * w.y + v.z * w.z

/-- The square of the length. -/
def lengthSquared (v : Vec3 α) : α := v.dot v

/-- The length. -/
def length (v : Vec3 α) : α := Scalar.sqrt v.lengthSquared

/-- The distance between two points. -/
def distance (v w : Vec3 α) : α := (v - w).length

/-- The square of the distance between two points. -/
def distanceSquared (v w : Vec3 α) : α := (v - w).lengthSquared

/-- The largest component. -/
def greatestComponent (v : Vec3 α) : α := Scalar.greatest v.x (Scalar.greatest v.y v.z)

/-- The vector of the same direction and length one, or the origin where there is none. -/
def normalizeOrZero (v : Vec3 α) : Vec3 α :=
  let r := Scalar.one / v.length
  if Scalar.isFinite r && Scalar.lt Scalar.zero r then v.scale r else zero

end Vec3

namespace Vec4

variable {α : Type}

/-- The components in order. -/
def toList (v : Vec4 α) : List α := [v.x, v.y, v.z, v.w]

/-- The first three components. -/
def truncate (v : Vec4 α) : Vec3 α := ⟨v.x, v.y, v.z⟩

/-- A function on every component. -/
def map {β : Type} (f : α → β) (v : Vec4 α) : Vec4 β := ⟨f v.x, f v.y, f v.z, f v.w⟩

/-- A function on every pair of components. -/
def zipWith {β γ : Type} (f : α → β → γ) (v : Vec4 α) (w : Vec4 β) : Vec4 γ :=
  ⟨f v.x w.x, f v.y w.y, f v.z w.z, f v.w w.w⟩

variable [Scalar α]

instance : Add (Vec4 α) := ⟨zipWith (· + ·)⟩

instance : Sub (Vec4 α) := ⟨zipWith (· - ·)⟩

instance : Mul (Vec4 α) := ⟨zipWith (· * ·)⟩

/-- Every component times a factor. -/
def scale (v : Vec4 α) (s : α) : Vec4 α := v.map (· * s)

/-- The origin. -/
def zero : Vec4 α := ⟨Scalar.zero, Scalar.zero, Scalar.zero, Scalar.zero⟩

end Vec4

namespace Mat4

variable {α : Type}

/-- The sixteen entries, column by column. -/
def toList (m : Mat4 α) : List α :=
  m.xAxis.toList ++ m.yAxis.toList ++ m.zAxis.toList ++ m.wAxis.toList

/-- The first three entries of each row of the linear part. -/
def linearRows (m : Mat4 α) : Vec3 (Vec3 α) :=
  ⟨⟨m.xAxis.x, m.yAxis.x, m.zAxis.x⟩,
   ⟨m.xAxis.y, m.yAxis.y, m.zAxis.y⟩,
   ⟨m.xAxis.z, m.yAxis.z, m.zAxis.z⟩⟩

variable [Scalar α]

/-- The identity matrix. -/
def identity : Mat4 α :=
  let o : α := Scalar.zero
  let i : α := Scalar.one
  ⟨⟨i, o, o, o⟩, ⟨o, i, o, o⟩, ⟨o, o, i, o⟩, ⟨o, o, o, i⟩⟩

/-- The image of a point under an affine matrix. -/
def transformPoint (m : Mat4 α) (p : Vec3 α) : Vec3 α :=
  m.wAxis.truncate +
    (m.zAxis.truncate.scale p.z + (m.yAxis.truncate.scale p.y + m.xAxis.truncate.scale p.x))

/-- The inverse by cofactors. The determinant is not tested: a singular matrix gives entries that
are infinite or undefined. -/
def inverse (m : Mat4 α) : Mat4 α :=
  let ⟨⟨m00, m01, m02, m03⟩, ⟨m10, m11, m12, m13⟩, ⟨m20, m21, m22, m23⟩, ⟨m30, m31, m32, m33⟩⟩ := m
  let c00 := m22 * m33 - m32 * m23
  let c02 := m12 * m33 - m32 * m13
  let c03 := m12 * m23 - m22 * m13
  let c04 := m21 * m33 - m31 * m23
  let c06 := m11 * m33 - m31 * m13
  let c07 := m11 * m23 - m21 * m13
  let c08 := m21 * m32 - m31 * m22
  let c10 := m11 * m32 - m31 * m12
  let c11 := m11 * m22 - m21 * m12
  let c12 := m20 * m33 - m30 * m23
  let c14 := m10 * m33 - m30 * m13
  let c15 := m10 * m23 - m20 * m13
  let c16 := m20 * m32 - m30 * m22
  let c18 := m10 * m32 - m30 * m12
  let c19 := m10 * m22 - m20 * m12
  let c20 := m20 * m31 - m30 * m21
  let c22 := m10 * m31 - m30 * m11
  let c23 := m10 * m21 - m20 * m11
  let f0 : Vec4 α := ⟨c00, c00, c02, c03⟩
  let f1 : Vec4 α := ⟨c04, c04, c06, c07⟩
  let f2 : Vec4 α := ⟨c08, c08, c10, c11⟩
  let f3 : Vec4 α := ⟨c12, c12, c14, c15⟩
  let f4 : Vec4 α := ⟨c16, c16, c18, c19⟩
  let f5 : Vec4 α := ⟨c20, c20, c22, c23⟩
  let v0 : Vec4 α := ⟨m10, m00, m00, m00⟩
  let v1 : Vec4 α := ⟨m11, m01, m01, m01⟩
  let v2 : Vec4 α := ⟨m12, m02, m02, m02⟩
  let v3 : Vec4 α := ⟨m13, m03, m03, m03⟩
  let i0 := v1 * f0 - v2 * f1 + v3 * f2
  let i1 := v0 * f0 - v2 * f3 + v3 * f4
  let i2 := v0 * f1 - v1 * f3 + v3 * f5
  let i3 := v0 * f2 - v1 * f4 + v2 * f5
  let i : α := Scalar.one
  let n : α := Scalar.zero - Scalar.one
  let even : Vec4 α := ⟨i, n, i, n⟩
  let odd : Vec4 α := ⟨n, i, n, i⟩
  let c0 := i0 * even
  let c1 := i1 * odd
  let c2 := i2 * even
  let c3 := i3 * odd
  let det := m00 * c0.x + m01 * c1.x + m02 * c2.x + m03 * c3.x
  let r := Scalar.one / det
  ⟨c0.scale r, c1.scale r, c2.scale r, c3.scale r⟩

end Mat4

end SceneShading
