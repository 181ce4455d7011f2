import SceneShading.Numeric.Vector

/-!
# Axis-aligned boxes

A box is its two extreme corners. It is *valid* when the upper corner is nowhere below the lower
one; an invalid box bounds nothing. The box `Box.invalid` has infinite corners of the wrong order,
which makes it the neutral element of growing: the first point a box grows by becomes both of its
corners.
-/

namespace SceneShading

/-- An axis-aligned box, by its least and greatest corner. -/
structure Box (α : Type) where
  min : Vec3 α
  max : Vec3 α
deriving Repr, BEq, Inhabited

namespace Box

/-- The box that bounds nothing and is neutral for growing. -/
def invalid : Box Binary32 := ⟨Vec3.splat Binary32.posInf, Vec3.splat Binary32.negInf⟩

variable {α : Type} [Scalar α]

/-- The upper corner is nowhere below the lower one. -/
def isValid (b : Box α) : Bool := b.min.allLe b.max

/-- The least box around `b` and a point. -/
def expandByPoint (b : Box α) (p : Vec3 α) : Box α := ⟨b.min.least p, b.max.greatest p⟩

/-- The least box around `b` and another box, which counts only if it is valid. -/
def expandByBox (b other : Box α) : Box α :=
  if other.isValid then ⟨b.min.least other.min, b.max.greatest other.max⟩ else b

/-- The middle of the box. -/
def center (b : Box α) : Vec3 α := (b.min + b.max).scale Scalar.half

/-- The square of half the diagonal. -/
def radius2 (b : Box α) : α := Scalar.quarter * (b.max - b.min).lengthSquared

/-- Half the diagonal. -/
def radius (b : Box α) : α := Scalar.sqrt b.radius2

/-- One corner: bit `0` of the number selects the upper `x`, bit `1` the upper `y` and bit `2` the
upper `z`. -/
def corner (b : Box α) (i : Nat) : Vec3 α :=
  ⟨if i.testBit 0 then b.max.x else b.min.x,
   if i.testBit 1 then b.max.y else b.min.y,
   if i.testBit 2 then b.max.z else b.min.z⟩

/-- The point lies in the box, whose border belongs to it. -/
def contains (b : Box α) (p : Vec3 α) : Bool := b.isValid && b.min.allLe p && p.allLe b.max

/-- The two boxes have a point in common. -/
def intersects (b other : Box α) : Bool :=
  b.isValid && other.isValid && b.min.allLe other.max && other.min.allLe b.max

/-- One axis of a transformed box: a column of the matrix times the extent of the box along it
widens the box on both sides. -/
def widen (b : Box α) (column : Vec3 α) (low high : α) : Box α :=
  let p := column.scale high
  let q := column.scale low
  ⟨b.min + p.least q, b.max + p.greatest q⟩

/-- A box around the image of the box under an affine matrix. -/
def transform (b : Box α) (m : Mat4 α) : Box α :=
  if b.isValid then
    let t := m.wAxis.truncate
    (((Box.mk t t).widen m.xAxis.truncate b.min.x b.max.x).widen
      m.yAxis.truncate b.min.y b.max.y).widen m.zAxis.truncate b.min.z b.max.z
  else b

theorem expandByBox_of_not_isValid {b other : Box α} (h : other.isValid = false) :
    b.expandByBox other = b := by simp [expandByBox, h]

theorem transform_of_not_isValid {b : Box α} {m : Mat4 α} (h : b.isValid = false) :
    b.transform m = b := by simp [transform, h]

end Box

end SceneShading
