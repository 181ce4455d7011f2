import Mathlib.Tactic
import SceneShading.Proofs.Bounds.Exact

/-!
# Spheres under affine maps

A transformed sphere has the radius times the length of the longest row of the linear part. A row says
how long the image of a direction can be in one axis, not how long it can be at all, so the transformed
sphere need not hold the images of all points of the sphere: it does exactly if the linear part is
*led* by a row (`Sphere.contains_transform_iff`). The longest row must be orthogonal to the other
ones, and what these lack of its length must make up for the angle between them (`Mat4.IsLed`).

A linear part stretches no direction by more than a factor exactly if its transpose does not
(`Mat4.image_le_iff_combination_le`). The transpose takes the axes to the rows, so for the transpose the
bound can be read off the scalar products of the rows (`Mat4.LedBy.combination_le`,
`Mat4.ledBy_of_image_le`).

Rows that are orthogonal are led by the longest one (`Mat4.isLed_of_orthogonal`), as for a rotation that
is followed by scaling along the axes. For one that is preceded by scaling, points are lost
(`Sphere.not_contains_transform_rotatedScale`), but none is farther off than by the square root of three
(`Sphere.dist_transform_le`).
-/

namespace SceneShading

/-! ## Rows and directions -/

namespace Mat4

variable (m : Mat4 Exact) {x y : EuclideanSpace ℝ (Fin 3)} {c : ℝ}

/-- The rows of the linear part, as directions. -/
noncomputable def row (i : Fin 3) : EuclideanSpace ℝ (Fin 3) :=
  (![m.linearRows.x, m.linearRows.y, m.linearRows.z] i).point

/-- The image of a direction. -/
noncomputable def image (x : EuclideanSpace ℝ (Fin 3)) : EuclideanSpace ℝ (Fin 3) :=
  WithLp.toLp _ fun i => ∑ j, m.row i j * x j

/-- The rows with weights: the image of a direction under the transpose. -/
noncomputable def combination (y : EuclideanSpace ℝ (Fin 3)) : EuclideanSpace ℝ (Fin 3) :=
  ∑ i, y i • m.row i

@[simp] lemma image_apply (i : Fin 3) : m.image x i = inner ℝ (m.row i) x := by
  change ∑ j, m.row i j * x j = _
  rw [PiLp.inner_apply]
  exact Finset.sum_congr rfl fun j _ => mul_comm (m.row i j) (x j)

/-- Points that are apart by a direction have images that are apart by the image of the direction. -/
lemma point_transformPoint_sub (p q : Vec3 Exact) :
    (m.transformPoint p).point - (m.transformPoint q).point = m.image (p.point - q.point) := by
  simp only [transformPoint, Vec3.point_add, Vec3.point_scale]
  ext i
  rw [image_apply, PiLp.inner_apply, Fin.sum_univ_three]
  fin_cases i <;> simp [row, linearRows, Vec3.point, Vec4.truncate] <;> ring

/-- The transpose goes over to the other side of a scalar product. -/
lemma inner_image_left : inner ℝ (m.image x) y = inner ℝ x (m.combination y) := by
  rw [combination, inner_sum, PiLp.inner_apply]
  refine Finset.sum_congr rfl fun i _ => ?_
  rw [inner_smul_right, image_apply, real_inner_comm x]
  simp

lemma combination_single (i : Fin 3) (a : ℝ) :
    m.combination (EuclideanSpace.single i a) = a • m.row i := by
  rw [combination, Finset.sum_eq_single i]
  · simp
  · intro j _ hne
    simp [hne]
  · simp

/-- A map stretches no direction by more than a factor if one that goes over to the other side of a
scalar product does not. -/
lemma norm_le_of_adjoint {f g : EuclideanSpace ℝ (Fin 3) → EuclideanSpace ℝ (Fin 3)}
    (hadjoint : ∀ x y, inner ℝ (f x) y = inner ℝ x (g y)) (hc : 0 ≤ c)
    (hg : ∀ y, ‖g y‖ ≤ c * ‖y‖) (x : EuclideanSpace ℝ (Fin 3)) : ‖f x‖ ≤ c * ‖x‖ := by
  rcases (norm_nonneg (f x)).eq_or_lt with hzero | hpos
  · rw [← hzero]
    positivity
  · refine le_of_mul_le_mul_right ?_ hpos
    calc ‖f x‖ * ‖f x‖ = inner ℝ x (g (f x)) := by rw [← hadjoint, real_inner_self_eq_norm_mul_norm]
      _ ≤ ‖x‖ * ‖g (f x)‖ := real_inner_le_norm _ _
      _ ≤ ‖x‖ * (c * ‖f x‖) := mul_le_mul_of_nonneg_left (hg _) (norm_nonneg x)
      _ = c * ‖x‖ * ‖f x‖ := by ring

/-- The linear part and its transpose stretch directions by no more than the same factors. -/
lemma image_le_iff_combination_le (hc : 0 ≤ c) :
    (∀ x, ‖m.image x‖ ≤ c * ‖x‖) ↔ ∀ y, ‖m.combination y‖ ≤ c * ‖y‖ := by
  constructor
  · exact norm_le_of_adjoint (fun y x => by
      rw [real_inner_comm, ← m.inner_image_left, real_inner_comm]) hc
  · exact norm_le_of_adjoint (fun x y => m.inner_image_left) hc

/-! ## Rows that lead -/

/-- A row leads the linear part: none is longer, the other rows are orthogonal to it, and what these
lack of its length is enough for their scalar product. -/
structure LedBy (k : Fin 3) : Prop where
  longest : ∀ i, ‖m.row i‖ ≤ ‖m.row k‖
  orthogonal : ∀ i ≠ k, inner ℝ (m.row i) (m.row k) = 0
  rest : ∀ i ≠ k, ∀ j ≠ k, i ≠ j → inner ℝ (m.row i) (m.row j) ^ 2 ≤
    (‖m.row k‖ ^ 2 - ‖m.row i‖ ^ 2) * (‖m.row k‖ ^ 2 - ‖m.row j‖ ^ 2)

/-- Some row leads the linear part. -/
def IsLed : Prop := ∃ k, m.LedBy k

/-- A product is small against squares with weights whose product is large. -/
lemma two_mul_le_of_sq_le {v w g a b : ℝ} (hv : 0 ≤ v) (hw : 0 ≤ w) (hg : g ^ 2 ≤ v * w) :
    2 * (a * b * g) ≤ v * a ^ 2 + w * b ^ 2 := by
  have hsq : (2 * (a * b * g)) ^ 2 ≤ (v * a ^ 2 + w * b ^ 2) ^ 2 :=
    calc (2 * (a * b * g)) ^ 2 = 4 * (a * b) ^ 2 * g ^ 2 := by ring
      _ ≤ 4 * (a * b) ^ 2 * (v * w) := mul_le_mul_of_nonneg_left hg (by positivity)
      _ = (v * a ^ 2 + w * b ^ 2) ^ 2 - (v * a ^ 2 - w * b ^ 2) ^ 2 := by ring
      _ ≤ (v * a ^ 2 + w * b ^ 2) ^ 2 := sub_le_self _ (sq_nonneg _)
  exact (le_abs_self _).trans (abs_le_of_sq_le_sq hsq (by positivity))

/-- The other two axes. -/
lemma exists_others (k : Fin 3) : ∃ i j, i ≠ k ∧ j ≠ k ∧ i ≠ j ∧ Finset.univ = {k, i, j} := by
  revert k
  decide

/-- With a row that leads, the transpose stretches no direction by more than its length. -/
lemma LedBy.combination_le {k : Fin 3} (h : m.LedBy k) (y : EuclideanSpace ℝ (Fin 3)) :
    ‖m.combination y‖ ≤ ‖m.row k‖ * ‖y‖ := by
  obtain ⟨i, j, hik, hjk, hij, huniv⟩ := exists_others k
  have hsum : ∀ {β : Type} [AddCommMonoid β] (f : Fin 3 → β), ∑ l, f l = f k + (f i + f j) := by
    intro β _ f
    rw [huniv, Finset.sum_insert (by simp [hik.symm, hjk.symm]), Finset.sum_pair hij]
  have hlength : ‖y‖ ^ 2 = y k ^ 2 + (y i ^ 2 + y j ^ 2) := by
    rw [EuclideanSpace.real_norm_sq_eq, hsum]
  have hled : inner ℝ (y k • m.row k) (y i • m.row i + y j • m.row j) = 0 := by
    rw [inner_add_right, inner_smul_left, inner_smul_right, inner_smul_left, inner_smul_right,
      real_inner_comm, h.orthogonal i hik, real_inner_comm, h.orthogonal j hjk]
    simp
  have hrest := two_mul_le_of_sq_le (a := y i) (b := y j)
    (sub_nonneg.2 (pow_le_pow_left₀ (norm_nonneg _) (h.longest i) 2))
    (sub_nonneg.2 (pow_le_pow_left₀ (norm_nonneg _) (h.longest j) 2)) (h.rest i hik j hjk hij)
  refine (pow_le_pow_iff_left₀ (norm_nonneg _) (by positivity) two_ne_zero).1 ?_
  calc ‖m.combination y‖ ^ 2
      = ‖y k • m.row k‖ ^ 2 + ‖y i • m.row i + y j • m.row j‖ ^ 2 := by
        rw [combination, hsum, norm_add_sq_real, hled, mul_zero, add_zero]
    _ = y k ^ 2 * ‖m.row k‖ ^ 2 + (y i ^ 2 * ‖m.row i‖ ^ 2 +
          2 * (y i * y j * inner ℝ (m.row i) (m.row j)) + y j ^ 2 * ‖m.row j‖ ^ 2) := by
        rw [norm_add_sq_real, norm_smul, norm_smul, norm_smul, mul_pow, mul_pow, mul_pow,
          Real.norm_eq_abs, Real.norm_eq_abs, Real.norm_eq_abs, sq_abs, sq_abs, sq_abs,
          inner_smul_left, inner_smul_right, mul_assoc]
        rfl
    _ ≤ ‖m.row k‖ ^ 2 * (y k ^ 2 + (y i ^ 2 + y j ^ 2)) := by linarith
    _ = (‖m.row k‖ * ‖y‖) ^ 2 := by rw [mul_pow, hlength]

/-- Two weights. -/
lemma norm_single_add_single {i j : Fin 3} (hij : i ≠ j) (a b : ℝ) :
    ‖EuclideanSpace.single i a + EuclideanSpace.single j b‖ ^ 2 = a ^ 2 + b ^ 2 := by
  rw [norm_add_sq_real, EuclideanSpace.inner_single_left]
  simp [hij]

lemma combination_add : m.combination (x + y) = m.combination x + m.combination y := by
  simp [combination, add_smul, Finset.sum_add_distrib]

/-- A longest row leads the linear part if that stretches no direction by more than the length of the
row: neither the row itself, nor what the transpose makes of two axes. -/
lemma ledBy_of_image_le {k : Fin 3} (hlongest : ∀ i, ‖m.row i‖ ≤ ‖m.row k‖)
    (h : ∀ x, ‖m.image x‖ ≤ ‖m.row k‖ * ‖x‖) : m.LedBy k := by
  have hcombination := (m.image_le_iff_combination_le (norm_nonneg (m.row k))).1 h
  refine ⟨hlongest, fun i hik => ?_, fun i hik j hjk hij => ?_⟩
  · have hsum : inner ℝ (m.row i) (m.row k) ^ 2 + inner ℝ (m.row k) (m.row k) ^ 2 ≤
        ‖m.image (m.row k)‖ ^ 2 := by
      rw [EuclideanSpace.real_norm_sq_eq, ← image_apply, ← image_apply]
      exact Finset.add_le_sum (f := fun l => m.image (m.row k) l ^ 2) (fun l _ => sq_nonneg _)
        (Finset.mem_univ i) (Finset.mem_univ k) hik
    have hle := pow_le_pow_left₀ (norm_nonneg _) (h (m.row k)) 2
    rw [real_inner_self_eq_norm_mul_norm] at hsum
    exact pow_eq_zero_iff two_ne_zero |>.1 (le_antisymm (by linarith) (sq_nonneg _))
  · have hquadratic : ∀ a : ℝ, 0 ≤ (‖m.row k‖ ^ 2 - ‖m.row i‖ ^ 2) * (a * a) +
        -2 * inner ℝ (m.row i) (m.row j) * a + (‖m.row k‖ ^ 2 - ‖m.row j‖ ^ 2) := by
      intro a
      have hle := pow_le_pow_left₀ (norm_nonneg _)
        (hcombination (EuclideanSpace.single i a + EuclideanSpace.single j 1)) 2
      rw [mul_pow, norm_single_add_single hij, combination_add, combination_single,
        combination_single, one_smul, norm_add_sq_real, norm_smul, mul_pow, Real.norm_eq_abs, sq_abs,
        inner_smul_left] at hle
      simp only [conj_trivial] at hle
      linarith
    have hdiscrim := discrim_le_zero hquadratic
    rw [discrim] at hdiscrim
    linarith

/-- Among rows that are orthogonal, the longest one leads. -/
theorem isLed_of_orthogonal (h : ∀ i j, i ≠ j → inner ℝ (m.row i) (m.row j) = 0) : m.IsLed := by
  obtain ⟨k, hk⟩ := Finite.exists_max fun i => ‖m.row i‖
  have hle : ∀ i, 0 ≤ ‖m.row k‖ ^ 2 - ‖m.row i‖ ^ 2 := fun i =>
    sub_nonneg.2 (pow_le_pow_left₀ (norm_nonneg _) (hk i) 2)
  refine ⟨k, hk, fun i hik => h i k hik, fun i _ j _ hij => ?_⟩
  rw [h i j hij, zero_pow two_ne_zero]
  exact mul_nonneg (hle i) (hle j)

lemma image_smul (t : ℝ) (x : EuclideanSpace ℝ (Fin 3)) : m.image (t • x) = t • m.image x := by
  ext i
  simp [inner_smul_right]

lemma image_zero : m.image 0 = 0 := by
  ext i
  simp

/-- The greatest square among the rows is that of a longest row. -/
lemma exists_longest : ∃ k, (∀ i, ‖m.row i‖ ≤ ‖m.row k‖) ∧
    (Scalar.sqrt (m.linearRows.map Vec3.lengthSquared).greatestComponent).toReal = ‖m.row k‖ := by
  obtain ⟨k, hk⟩ := Finite.exists_max fun i => ‖m.row i‖
  have hsq : ∀ i, ‖m.row i‖ ^ 2 ≤ ‖m.row k‖ ^ 2 := fun i => pow_le_pow_left₀ (norm_nonneg _) (hk i) 2
  have hgreatest : (m.linearRows.map Vec3.lengthSquared).greatestComponent.toReal =
      max (‖m.row 0‖ ^ 2) (max (‖m.row 1‖ ^ 2) (‖m.row 2‖ ^ 2)) := by
    simp [Vec3.greatestComponent, Vec3.map, row]
  refine ⟨k, hk, ?_⟩
  rw [Exact.toReal_sqrt, hgreatest, ← Real.sqrt_sq (norm_nonneg (m.row k))]
  congr 1
  refine le_antisymm (max_le (hsq 0) (max_le (hsq 1) (hsq 2))) ?_
  fin_cases k <;> simp

/-- No direction is stretched by more than a longest row would stretch it in all three axes. -/
lemma image_le_of_longest {k : Fin 3} (hk : ∀ i, ‖m.row i‖ ≤ ‖m.row k‖)
    (x : EuclideanSpace ℝ (Fin 3)) : ‖m.image x‖ ≤ √3 * (‖m.row k‖ * ‖x‖) := by
  have haxis : ∀ i, m.image x i ^ 2 ≤ (‖m.row k‖ * ‖x‖) ^ 2 := by
    intro i
    rw [image_apply, ← sq_abs]
    refine pow_le_pow_left₀ (abs_nonneg _) ((abs_real_inner_le_norm _ _).trans ?_) 2
    exact mul_le_mul_of_nonneg_right (hk i) (norm_nonneg x)
  refine (pow_le_pow_iff_left₀ (norm_nonneg _) (by positivity) two_ne_zero).1 ?_
  calc ‖m.image x‖ ^ 2 = m.image x 0 ^ 2 + m.image x 1 ^ 2 + m.image x 2 ^ 2 := by
        rw [EuclideanSpace.real_norm_sq_eq, Fin.sum_univ_three]
    _ ≤ 3 * (‖m.row k‖ * ‖x‖) ^ 2 := by linarith [haxis 0, haxis 1, haxis 2]
    _ = (√3 * (‖m.row k‖ * ‖x‖)) ^ 2 := by rw [mul_pow (√3), Real.sq_sqrt (by norm_num)]

/-- The affine map with columns of whole numbers. -/
noncomputable def ofWholes (x y z w : Vec3 Int) : Mat4 Exact :=
  let column (v : Vec3 Int) (last : Exact) : Vec4 Exact := ⟨⟨v.x⟩, ⟨v.y⟩, ⟨v.z⟩, last⟩
  ⟨column x Scalar.zero, column y Scalar.zero, column z Scalar.zero, column w Scalar.one⟩

end Mat4

/-! ## Transformed spheres -/

namespace Vec3

/-- The scalar product of directions. -/
lemma inner_point (v w : Vec3 Exact) : inner ℝ v.point w.point = (v.dot w).toReal := by
  rw [PiLp.inner_apply, Fin.sum_univ_three]
  simp [point, dot, mul_comm]

/-- Every point has a vector. -/
lemma exists_point (x : EuclideanSpace ℝ (Fin 3)) : ∃ v : Vec3 Exact, v.point = x := by
  refine ⟨⟨⟨x 0⟩, ⟨x 1⟩, ⟨x 2⟩⟩, ?_⟩
  ext i
  fin_cases i <;> rfl

end Vec3

namespace Sphere

variable {s : Sphere Exact} {m : Mat4 Exact} {p : Vec3 Exact}

/-- The sphere is transformed to the sphere around the image of its center, with the radius that a
longest row makes of its own. -/
lemma exists_transform (hs : s.isValid = true) (m : Mat4 Exact) :
    ∃ k, (∀ i, ‖m.row i‖ ≤ ‖m.row k‖) ∧ (s.transform m).center = m.transformPoint s.center ∧
      (s.transform m).radius.toReal = s.radius.toReal * ‖m.row k‖ := by
  obtain ⟨k, hk, hsqrt⟩ := m.exists_longest
  refine ⟨k, hk, ?_⟩
  rw [transform, if_pos hs]
  exact ⟨rfl, by rw [Exact.toReal_mul, hsqrt]⟩

/-- **A transformed sphere holds the images of all points of the sphere exactly if it is a single point,
or the linear part is led by a row.** -/
theorem contains_transform_iff (s : Sphere Exact) (m : Mat4 Exact) (hs : s.isValid = true) :
    (∀ p, s.contains p = true → (s.transform m).contains (m.transformPoint p) = true) ↔
      s.radius.toReal = 0 ∨ m.IsLed := by
  obtain ⟨k, hk, hcenter, hradius⟩ := exists_transform hs m
  have hnonneg := isValid_iff.1 hs
  -- in terms of directions from the center
  have hdirections : (∀ p, s.contains p = true →
      (s.transform m).contains (m.transformPoint p) = true) ↔
        ∀ x, ‖x‖ ≤ s.radius.toReal → ‖m.image x‖ ≤ s.radius.toReal * ‖m.row k‖ := by
    simp only [contains_iff, hcenter, hradius, dist_eq_norm, Mat4.point_transformPoint_sub]
    constructor
    · intro h x hx
      obtain ⟨p, hp⟩ := Vec3.exists_point (s.center.point + x)
      have hdirection : p.point - s.center.point = x := by rw [hp, add_sub_cancel_left]
      exact hdirection ▸ h p (hdirection.symm ▸ hx)
    · exact fun h p hp => h _ hp
  rw [hdirections]
  constructor
  · intro h
    refine hnonneg.eq_or_lt.imp Eq.symm fun hpos => ⟨k, m.ledBy_of_image_le hk fun x => ?_⟩
    rcases (norm_nonneg x).eq_or_lt with hzero | hx
    · rw [norm_eq_zero.1 hzero.symm, m.image_zero, norm_zero, mul_zero]
    · have hscaled := h ((s.radius.toReal / ‖x‖) • x) (by
        rw [norm_smul, Real.norm_of_nonneg (by positivity), div_mul_cancel₀ _ hx.ne'])
      rw [m.image_smul, norm_smul, Real.norm_of_nonneg (by positivity), div_mul_eq_mul_div,
        div_le_iff₀ hx, mul_assoc] at hscaled
      exact le_of_mul_le_mul_left hscaled hpos
  · rintro (hpoint | ⟨l, hl⟩) x hx
    · rw [hpoint, norm_le_zero_iff] at hx
      rw [hx, m.image_zero, norm_zero, hpoint, zero_mul]
    · have hstretch := (m.image_le_iff_combination_le (norm_nonneg (m.row l))).2 hl.combination_le x
      calc ‖m.image x‖ ≤ ‖m.row l‖ * ‖x‖ := hstretch
        _ ≤ ‖m.row k‖ * s.radius.toReal := mul_le_mul (hk l) hx (norm_nonneg x) (norm_nonneg _)
        _ = s.radius.toReal * ‖m.row k‖ := mul_comm _ _

/-- Whatever the linear part is, a radius larger by the square root of three would be enough. -/
theorem dist_transform_le (hs : s.isValid = true) (hp : s.contains p = true) (m : Mat4 Exact) :
    dist (m.transformPoint p).point (s.transform m).center.point ≤
      √3 * (s.transform m).radius.toReal := by
  obtain ⟨k, hk, hcenter, hradius⟩ := exists_transform hs m
  have hheld := contains_iff.1 hp
  rw [dist_eq_norm] at hheld
  rw [hcenter, hradius, dist_eq_norm, Mat4.point_transformPoint_sub, mul_comm s.radius.toReal]
  refine (m.image_le_of_longest hk _).trans ?_
  gcongr

/-- A sphere is scaled to different lengths, rotated by a right triangle with the sides three, four and
five, and then moved. -/
noncomputable def rotatedScale : Mat4 Exact := .ofWholes ⟨3, 4, 0⟩ ⟨-8, 6, 0⟩ ⟨0, 0, 1⟩ ⟨7, 0, 0⟩

/-- The same rotation first, then scaling. -/
noncomputable def scaledRotation : Mat4 Exact := .ofWholes ⟨3, -8, 0⟩ ⟨4, 6, 0⟩ ⟨0, 0, 1⟩ ⟨7, 0, 0⟩

theorem contains_transform_iff_scaledRotation :
    let s : Sphere Exact := ⟨⟨⟨1⟩, ⟨2⟩, ⟨3⟩⟩, Scalar.half⟩
    s.isValid = true ∧ scaledRotation.IsLed ∧ ∀ p, s.contains p = true →
      (s.transform scaledRotation).contains (scaledRotation.transformPoint p) = true := by
  intro s
  have hs : s.isValid = true := isValid_iff.2 (by norm_num [s])
  have hled : scaledRotation.IsLed := by
    refine scaledRotation.isLed_of_orthogonal fun i j hij => ?_
    rw [Mat4.row, Mat4.row, Vec3.inner_point]
    fin_cases i <;> fin_cases j <;> first
      | exact absurd rfl hij
      | norm_num [scaledRotation, Mat4.ofWholes, Mat4.linearRows, Vec3.dot]
  exact ⟨hs, hled, (contains_transform_iff s scaledRotation hs).2 (.inr hled)⟩

/-- Scaling to different lengths before a rotation makes the longest column longer than all rows: of the
unit sphere, a point on that axis is lost. -/
theorem not_contains_transform_rotatedScale :
    let s : Sphere Exact := ⟨Vec3.zero, Scalar.one⟩
    let p : Vec3 Exact := ⟨⟨0⟩, ⟨1⟩, ⟨0⟩⟩
    s.contains p = true ∧
      (s.transform rotatedScale).contains (rotatedScale.transformPoint p) = false := by
  intro s p
  have hs : s.isValid = true := isValid_iff.2 zero_le_one
  have hlength : ∀ v : Vec3 Exact, ‖v.point‖ ^ 2 = v.lengthSquared.toReal := fun v =>
    Vec3.toReal_lengthSquared.symm
  have hcenter : s.center.point = 0 := Vec3.point_zero
  have hp : ‖p.point‖ ^ 2 = 1 := by
    rw [hlength]
    norm_num [p, Vec3.lengthSquared, Vec3.dot]
  have hrows : ∀ i, ‖rotatedScale.row i‖ ^ 2 ≤ 73 := by
    intro i
    rw [Mat4.row, hlength]
    fin_cases i <;> norm_num [rotatedScale, Mat4.ofWholes, Mat4.linearRows, Vec3.lengthSquared, Vec3.dot]
  have himage : ‖rotatedScale.image p.point‖ ^ 2 = 100 := by
    rw [EuclideanSpace.real_norm_sq_eq, Fin.sum_univ_three]
    simp only [Mat4.image_apply, Mat4.row, Vec3.inner_point, Matrix.cons_val]
    norm_num [rotatedScale, Mat4.ofWholes, Mat4.linearRows, Vec3.dot, p]
  obtain ⟨k, -, hmoved, hradius⟩ := exists_transform hs rotatedScale
  refine ⟨contains_iff.2 ?_, Bool.eq_false_iff.2 fun hheld => ?_⟩
  · rw [hcenter, dist_zero_right]
    exact (pow_le_pow_iff_left₀ (norm_nonneg _) zero_le_one two_ne_zero).1 (by rw [hp, one_pow])
  · have hle := contains_iff.1 hheld
    rw [hmoved, hradius, dist_eq_norm, Mat4.point_transformPoint_sub, hcenter, sub_zero,
      Exact.toReal_one, one_mul] at hle
    have hsq := pow_le_pow_left₀ (norm_nonneg _) hle 2
    rw [himage] at hsq
    linarith [hrows k]

end Sphere

end SceneShading
