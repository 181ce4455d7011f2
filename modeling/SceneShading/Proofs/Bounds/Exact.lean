import Mathlib.Analysis.InnerProductSpace.PiL2
import Mathlib.Tactic
import SceneShading.Bounds.Sphere

/-!
# Volumes without rounding

Volumes are computed with any scalars. Over real numbers (`Exact`) nothing is rounded, and what is
computed is geometry: a vector is a point of Euclidean space (`Vec3.point`), a valid sphere holds the
points of a closed ball (`Sphere.contains_iff`), and a box holds the points between its corners in every
coordinate (`Box.contains_iff`).
-/

namespace SceneShading

/-! ## Real scalars -/

/-- A scalar that is a real number. -/
structure Exact where
  toReal : ℝ

namespace Exact

/-- Every number is finite. A quotient by zero is zero, so that a test for a positive quotient fails
where the quotient would be infinite. -/
noncomputable instance : Scalar Exact where
  add a b := ⟨a.toReal + b.toReal⟩
  sub a b := ⟨a.toReal - b.toReal⟩
  mul a b := ⟨a.toReal * b.toReal⟩
  div a b := ⟨a.toReal / b.toReal⟩
  zero := ⟨0⟩
  one := ⟨1⟩
  half := ⟨1 / 2⟩
  quarter := ⟨1 / 4⟩
  sqrt a := ⟨√a.toReal⟩
  lt a b := decide (a.toReal < b.toReal)
  le a b := decide (a.toReal ≤ b.toReal)
  isFinite _ := true

variable {a b : Exact}

@[simp] lemma toReal_add : (a + b).toReal = a.toReal + b.toReal := rfl

@[simp] lemma toReal_sub : (a - b).toReal = a.toReal - b.toReal := rfl

@[simp] lemma toReal_mul : (a * b).toReal = a.toReal * b.toReal := rfl

@[simp] lemma toReal_div : (a / b).toReal = a.toReal / b.toReal := rfl

@[simp] lemma toReal_zero : (Scalar.zero : Exact).toReal = 0 := rfl

@[simp] lemma toReal_one : (Scalar.one : Exact).toReal = 1 := rfl

@[simp] lemma toReal_half : (Scalar.half : Exact).toReal = 1 / 2 := rfl

@[simp] lemma toReal_quarter : (Scalar.quarter : Exact).toReal = 1 / 4 := rfl

@[simp] lemma toReal_sqrt : (Scalar.sqrt a).toReal = √a.toReal := rfl

@[simp] lemma isFinite_eq : Scalar.isFinite a = true := rfl

@[simp] lemma lt_iff : Scalar.lt a b = true ↔ a.toReal < b.toReal := decide_eq_true_iff

@[simp] lemma le_iff : Scalar.le a b = true ↔ a.toReal ≤ b.toReal := decide_eq_true_iff

@[simp] lemma toReal_least : (Scalar.least a b).toReal = min a.toReal b.toReal := by
  unfold Scalar.least
  split
  next h => exact (min_eq_left (lt_iff.1 h).le).symm
  next h => exact (min_eq_right (not_lt.1 fun hlt => h (lt_iff.2 hlt))).symm

@[simp] lemma toReal_greatest : (Scalar.greatest a b).toReal = max a.toReal b.toReal := by
  unfold Scalar.greatest
  split
  next h => exact (max_eq_left (lt_iff.1 h).le).symm
  next h => exact (max_eq_right (not_lt.1 fun hlt => h (lt_iff.2 hlt))).symm

end Exact

/-! ## Points -/

namespace Vec3

variable {v w : Vec3 Exact}

/-- The point with the components of a vector. -/
noncomputable def point (v : Vec3 Exact) : EuclideanSpace ℝ (Fin 3) :=
  !₂[v.x.toReal, v.y.toReal, v.z.toReal]

@[simp] lemma point_add : (v + w).point = v.point + w.point := by
  ext i
  fin_cases i <;> rfl

@[simp] lemma point_sub : (v - w).point = v.point - w.point := by
  ext i
  fin_cases i <;> rfl

@[simp] lemma point_scale {s : Exact} : (v.scale s).point = s.toReal • v.point := by
  ext i
  fin_cases i <;> exact mul_comm _ _

@[simp] lemma point_zero : (zero : Vec3 Exact).point = 0 := by
  ext i
  fin_cases i <;> rfl

@[simp] lemma point_least (i : Fin 3) : (v.least w).point i = min (v.point i) (w.point i) := by
  fin_cases i <;> exact Exact.toReal_least

@[simp] lemma point_greatest (i : Fin 3) : (v.greatest w).point i = max (v.point i) (w.point i) := by
  fin_cases i <;> exact Exact.toReal_greatest

lemma allLe_iff : v.allLe w = true ↔ ∀ i, v.point i ≤ w.point i := by
  simp only [allLe, Bool.and_eq_true, Exact.le_iff, Fin.forall_fin_succ, and_assoc]
  simp [point]

@[simp] lemma toReal_lengthSquared : v.lengthSquared.toReal = ‖v.point‖ ^ 2 := by
  rw [EuclideanSpace.real_norm_sq_eq, Fin.sum_univ_three]
  simp [lengthSquared, dot, point, pow_two]

@[simp] lemma toReal_length : v.length.toReal = ‖v.point‖ := by
  rw [length, Exact.toReal_sqrt, toReal_lengthSquared, Real.sqrt_sq (norm_nonneg _)]

@[simp] lemma toReal_distanceSquared : (v.distanceSquared w).toReal = dist v.point w.point ^ 2 := by
  rw [distanceSquared, toReal_lengthSquared, point_sub, dist_eq_norm]

/-- The direction of a vector, or the origin where there is none. -/
@[simp] lemma point_normalizeOrZero : v.normalizeOrZero.point = ‖v.point‖⁻¹ • v.point := by
  unfold normalizeOrZero
  simp only [Exact.isFinite_eq, Bool.true_and, Exact.lt_iff, Exact.toReal_zero, Exact.toReal_div,
    Exact.toReal_one, toReal_length, one_div, inv_pos]
  split
  next => rw [point_scale, Exact.toReal_div, Exact.toReal_one, toReal_length, one_div]
  next h =>
    rw [norm_le_zero_iff.1 (not_lt.1 h), point_zero, smul_zero]

end Vec3

/-! ## Boxes and spheres -/

namespace Box

variable {b : Box Exact} {p : Vec3 Exact}

lemma isValid_iff : b.isValid = true ↔ ∀ i, b.min.point i ≤ b.max.point i := Vec3.allLe_iff

/-- A box holds what lies between its corners. -/
lemma contains_iff : b.contains p = true ↔
    ∀ i, b.min.point i ≤ p.point i ∧ p.point i ≤ b.max.point i := by
  simp only [contains, isValid, Bool.and_eq_true, Vec3.allLe_iff, forall_and]
  exact ⟨fun h => ⟨h.1.2, h.2⟩, fun h => ⟨⟨fun i => (h.1 i).trans (h.2 i), h.1⟩, h.2⟩⟩

lemma point_center : b.center.point = (1 / 2 : ℝ) • (b.min.point + b.max.point) := by
  rw [center, Vec3.point_scale, Vec3.point_add, Exact.toReal_half]

lemma toReal_radius : b.radius.toReal = ‖(1 / 2 : ℝ) • (b.max.point - b.min.point)‖ := by
  rw [radius, radius2, Exact.toReal_sqrt, Exact.toReal_mul, Vec3.toReal_lengthSquared, Vec3.point_sub,
    Exact.toReal_quarter, ← Real.sqrt_sq (norm_nonneg ((1 / 2 : ℝ) • _)), norm_smul,
    Real.norm_of_nonneg one_half_pos.le]
  ring_nf

/-- A corner has a coordinate of the box in every axis. -/
lemma point_corner (k : Nat) (i : Fin 3) :
    (b.corner k).point i = if k.testBit i then b.max.point i else b.min.point i := by
  fin_cases i <;> exact apply_ite Exact.toReal _ _ _

end Box

namespace Sphere

variable {s : Sphere Exact} {p : Vec3 Exact}

lemma isValid_iff : s.isValid = true ↔ 0 ≤ s.radius.toReal := Exact.le_iff

/-- A sphere holds the points of a closed ball. -/
lemma contains_iff : s.contains p = true ↔ dist p.point s.center.point ≤ s.radius.toReal := by
  rw [contains, Bool.and_eq_true, isValid_iff, Exact.le_iff, Vec3.toReal_distanceSquared, radius2,
    Exact.toReal_mul, ← pow_two, dist_comm]
  constructor
  · rintro ⟨hvalid, hle⟩
    exact (pow_le_pow_iff_left₀ dist_nonneg hvalid two_ne_zero).1 hle
  · intro hle
    have hvalid : 0 ≤ s.radius.toReal := dist_nonneg.trans hle
    exact ⟨hvalid, (pow_le_pow_iff_left₀ dist_nonneg hvalid two_ne_zero).2 hle⟩

end Sphere

end SceneShading
