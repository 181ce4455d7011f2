import SceneShading.Bounds.Box

/-!
# Bounding spheres

A sphere is valid when its radius is not below zero; an invalid sphere bounds nothing and is
neutral for growing. A sphere grows by a point or by another sphere to a sphere around both, and
by a box through the box that encloses the sphere's far sides as seen from the corners.
-/

namespace SceneShading

/-- A sphere. -/
structure Sphere (α : Type) where
  center : Vec3 α
  radius : α
deriving Repr, BEq, Inhabited

namespace Sphere

variable {α : Type} [Scalar α]

/-- The sphere that bounds nothing: its radius is below zero. -/
def invalid : Sphere α := ⟨Vec3.zero, Scalar.zero - Scalar.one⟩

/-- The radius is not below zero. -/
def isValid (s : Sphere α) : Bool := Scalar.le Scalar.zero s.radius

/-- The square of the radius. -/
def radius2 (s : Sphere α) : α := s.radius * s.radius

/-- The sphere around the corners of a box. -/
def ofBox (b : Box α) : Sphere α := if b.isValid then ⟨b.center, b.radius⟩ else invalid

/-- The sphere around `s` and a point: the center moves by half of what the point stands out. -/
def expandByPoint (s : Sphere α) (p : Vec3 α) : Sphere α :=
  if s.isValid then
    let dv := p - s.center
    let r := dv.length
    if Scalar.lt s.radius r then
      let dr := (r - s.radius) * Scalar.half
      ⟨s.center + dv.scale (dr / r), s.radius + dr⟩
    else s
  else ⟨p, Scalar.zero⟩

/-- The sphere of the same center around `s` and another sphere. -/
def expandRadiusBySphere (s other : Sphere α) : Sphere α :=
  if !other.isValid then s
  else if !s.isValid then other
  else
    let r := s.center.distance other.center + other.radius
    if Scalar.lt s.radius r then { s with radius := r } else s

/-- The least sphere around `s` and another sphere. -/
def expandBySphere (s other : Sphere α) : Sphere α :=
  if !other.isValid then s
  else if !s.isValid then other
  else
    let d := s.center.distance other.center
    if Scalar.le (d + other.radius) s.radius then s
    else if Scalar.le (d + s.radius) other.radius then other
    else
      let radius := (s.radius + d + other.radius) * Scalar.half
      let ratio := (radius - s.radius) / d
      ⟨s.center + (other.center - s.center).scale ratio, radius⟩

/-- The point of the sphere that is farthest from `p`. -/
def farSide (s : Sphere α) (p : Vec3 α) : Vec3 α :=
  s.center - (p - s.center).normalizeOrZero.scale s.radius

/-- The sphere around a box that has grown by the sphere's far sides as seen from its corners. -/
def expandByBox (s : Sphere α) (b : Box α) : Sphere α :=
  if !b.isValid then s
  else if !s.isValid then ofBox b
  else
    let enclosing := (List.range 8).foldl (fun e i => e.expandByPoint (s.farSide (b.corner i))) b
    ⟨enclosing.center, enclosing.radius⟩

/-- The point lies in the sphere, whose surface belongs to it. -/
def contains (s : Sphere α) (p : Vec3 α) : Bool :=
  s.isValid && Scalar.le (s.center.distanceSquared p) s.radius2

/-- The two spheres have a point in common. -/
def intersects (s other : Sphere α) : Bool :=
  s.isValid && other.isValid &&
    let r := s.radius + other.radius
    Scalar.le (s.center.distanceSquared other.center) (r * r)

/-- A sphere around the image of the sphere under an affine matrix: the radius grows by the length
of the longest row of the linear part. -/
def transform (s : Sphere α) (m : Mat4 α) : Sphere α :=
  if s.isValid then
    let scale := Scalar.sqrt (m.linearRows.map Vec3.lengthSquared).greatestComponent
    ⟨m.transformPoint s.center, s.radius * scale⟩
  else s

/-- Whether a volume need not be drawn: it bounds nothing, or it lies outside the view. -/
def culledBy (bounds view : Sphere α) : Bool := !bounds.isValid || !view.intersects bounds

theorem transform_of_not_isValid {s : Sphere α} {m : Mat4 α} (h : s.isValid = false) :
    s.transform m = s := by simp [transform, h]

end Sphere

namespace Box

variable {α : Type} [Scalar α]

/-- The least box around `b` and a sphere, which counts only if it is valid. -/
def expandBySphere (b : Box α) (s : Sphere α) : Box α :=
  if s.isValid then
    let r := Vec3.splat s.radius
    ⟨b.min.least (s.center - r), b.max.greatest (s.center + r)⟩
  else b

end Box

end SceneShading
