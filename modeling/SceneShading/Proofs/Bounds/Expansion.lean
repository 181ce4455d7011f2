import Mathlib.Tactic
import SceneShading.Proofs.Bounds.Exact

/-!
# Growing a sphere by a box

A sphere grows by a box through a box that encloses both the box and the far sides of the sphere, as
they are seen from the corners of the box (`Sphere.exists_encloses`). The sphere around the enclosing
box holds whatever that box holds (`Box.dist_center_le`), so no point of the box is lost.

For the points of the old sphere, the corner that is farthest from its center decides. If no corner lies
inside the sphere, then in no axis a far side is farther from the center than that corner, so the
enclosing box ends at the corner on one side, and reaches at least to the far side of the corner on the
other one. This bounds in every axis how far the center moves and how long the box is
(`Sphere.axis_bounds`), and the radius grows by no less than the center moves
(`Sphere.dist_add_radius_le`).

With corners inside the sphere, far sides alone do not hold the sphere: growing by a point strictly
inside makes the sphere smaller (`Sphere.exists_lost`).
-/

namespace SceneShading

/-- A vector that is shorter in every axis is shorter. -/
lemma norm_le_of_abs_le {x y : EuclideanSpace ℝ (Fin 3)} (h : ∀ i, |x i| ≤ |y i|) : ‖x‖ ≤ ‖y‖ := by
  rw [EuclideanSpace.norm_eq, EuclideanSpace.norm_eq]
  refine Real.sqrt_le_sqrt (Finset.sum_le_sum fun i _ => ?_)
  exact pow_le_pow_left₀ (norm_nonneg _) (h i) 2

/-! ## Boxes -/

namespace Box

variable {b e : Box Exact} {points : List (Vec3 Exact)} {p : Vec3 Exact}

/-- The box is the least one around another box and points. -/
structure Encloses (e b : Box Exact) (points : List (Vec3 Exact)) : Prop where
  around : ∀ i, e.min.point i ≤ b.min.point i ∧ b.max.point i ≤ e.max.point i
  holds : ∀ p ∈ points, ∀ i, e.min.point i ≤ p.point i ∧ p.point i ≤ e.max.point i
  least : ∀ i low high, low ≤ b.min.point i → b.max.point i ≤ high →
    (∀ p ∈ points, low ≤ p.point i ∧ p.point i ≤ high) →
      low ≤ e.min.point i ∧ e.max.point i ≤ high

/-- A box that grows by points becomes the least one around them and the old box. -/
lemma encloses_foldl (points : List (Vec3 Exact)) (b : Box Exact) :
    (points.foldl expandByPoint b).Encloses b points := by
  induction points generalizing b with
  | nil => exact ⟨fun i => ⟨le_rfl, le_rfl⟩, nofun, fun i low high hlow hhigh _ => ⟨hlow, hhigh⟩⟩
  | cons p points ih =>
    obtain ⟨hbox, hpoints, hleast⟩ := ih (b.expandByPoint p)
    have hmin : ∀ i low, low ≤ (b.expandByPoint p).min.point i ↔
        low ≤ b.min.point i ∧ low ≤ p.point i := fun i low => by
      rw [expandByPoint, Vec3.point_least, le_min_iff]
    have hmax : ∀ i high, (b.expandByPoint p).max.point i ≤ high ↔
        b.max.point i ≤ high ∧ p.point i ≤ high := fun i high => by
      rw [expandByPoint, Vec3.point_greatest, max_le_iff]
    simp only [hmin, hmax] at hbox hleast
    refine ⟨fun i => ⟨(hbox i).1.1, (hbox i).2.1⟩, List.forall_mem_cons.2 ⟨fun i => ?_, hpoints⟩, ?_⟩
    · exact ⟨(hbox i).1.2, (hbox i).2.2⟩
    · intro i low high hlow hhigh hall
      obtain ⟨hfirst, hrest⟩ := List.forall_mem_cons.1 hall
      exact hleast i low high ⟨hlow, hfirst.1⟩ ⟨hhigh, hfirst.2⟩ hrest

/-- The least box around a point and points that agree in an axis is no longer there than the way
between them. -/
lemma Encloses.length_le (he : e.Encloses b points) (hpoint : b.max = b.min) {i : Fin 3} {x : ℝ}
    (hpoints : ∀ p ∈ points, p.point i = x) :
    |e.max.point i - e.min.point i| ≤ |b.min.point i - x| := by
  obtain ⟨hlow, hhigh⟩ := he.least i (b.min.point i ⊓ x) (b.min.point i ⊔ x) inf_le_left
    (hpoint ▸ le_sup_left) fun p hp => by
      rw [hpoints p hp]
      exact ⟨inf_le_right, le_sup_right⟩
  have hordered : e.min.point i ≤ e.max.point i :=
    (he.around i).1.trans ((congrArg (fun v => v.point i) hpoint).ge.trans (he.around i).2)
  rw [abs_of_nonneg (sub_nonneg.2 hordered), ← max_sub_min_eq_abs']
  exact sub_le_sub hhigh hlow

/-- Half the diagonal reaches from the center to every point of the box. -/
lemma dist_center_le (h : ∀ i, e.min.point i ≤ p.point i ∧ p.point i ≤ e.max.point i) :
    dist p.point e.center.point ≤ e.radius.toReal := by
  rw [dist_eq_norm, toReal_radius, point_center]
  refine norm_le_of_abs_le fun i => ?_
  obtain ⟨hlow, hhigh⟩ := h i
  simp only [PiLp.sub_apply, PiLp.smul_apply, PiLp.add_apply, smul_eq_mul]
  refine le_trans (abs_le.2 ⟨?_, ?_⟩) (le_abs_self _) <;> linarith

/-- A corner of a valid box lies in the box. -/
lemma corner_mem (hb : b.isValid = true) (k : Nat) (i : Fin 3) :
    b.min.point i ≤ (b.corner k).point i ∧ (b.corner k).point i ≤ b.max.point i := by
  have hle := isValid_iff.1 hb i
  rw [point_corner]
  split
  · exact ⟨hle, le_rfl⟩
  · exact ⟨le_rfl, hle⟩

/-- No corner is farther in any axis than the farthest one. -/
lemma exists_farthest (b : Box Exact) (c : EuclideanSpace ℝ (Fin 3)) : ∃ k < 8, ∀ i,
    |b.min.point i - c i| ≤ |(b.corner k).point i - c i| ∧
      |b.max.point i - c i| ≤ |(b.corner k).point i - c i| := by
  have hbits : ∀ x y z : Bool, ∃ k < 8, ∀ i : Fin 3, k.testBit i = ![x, y, z] i := by decide
  let far (i : Fin 3) : Bool := decide (|b.min.point i - c i| ≤ |b.max.point i - c i|)
  obtain ⟨k, hk, hfar⟩ := hbits (far 0) (far 1) (far 2)
  refine ⟨k, hk, fun i => ?_⟩
  have hbit : k.testBit i = far i := by
    rw [hfar]
    fin_cases i <;> rfl
  rw [point_corner, hbit]
  by_cases hle : |b.min.point i - c i| ≤ |b.max.point i - c i|
  · rw [if_pos (decide_eq_true hle)]
    exact ⟨hle, le_rfl⟩
  · rw [if_neg (by simpa [far] using hle)]
    exact ⟨le_rfl, (not_le.1 hle).le⟩

end Box

/-! ## Spheres -/

namespace Sphere

variable {s : Sphere Exact} {b e : Box Exact} {p : Vec3 Exact}

/-- The far sides of a sphere, as they are seen from the corners of a box. -/
noncomputable def farSides (s : Sphere Exact) (b : Box Exact) : List (Vec3 Exact) :=
  (List.range 8).map fun k => s.farSide (b.corner k)

/-- A sphere grows by a box to the sphere around a box that encloses the far sides. -/
lemma exists_encloses (hs : s.isValid = true) (hb : b.isValid = true) :
    ∃ e : Box Exact, s.expandByBox b = ⟨e.center, e.radius⟩ ∧ e.Encloses b (s.farSides b) := by
  refine ⟨_, ?_, Box.encloses_foldl (s.farSides b) b⟩
  rw [farSides, List.foldl_map, expandByBox, hs, hb]
  rfl

/-- A far side lies opposite of the point that it is seen from. -/
lemma farSide_apply (s : Sphere Exact) (p : Vec3 Exact) (i : Fin 3) :
    (s.farSide p).point i = s.center.point i -
      s.radius.toReal * ‖p.point - s.center.point‖⁻¹ * (p.point i - s.center.point i) := by
  rw [farSide, Vec3.point_sub, Vec3.point_scale, Vec3.point_normalizeOrZero, Vec3.point_sub, smul_smul]
  rfl

/-- The part that the radius makes up of the way to a point outside. -/
lemma part_of_way {r : ℝ} {d : EuclideanSpace ℝ (Fin 3)} (hr : 0 ≤ r) (hd : r ≤ ‖d‖) :
    r * ‖d‖⁻¹ ≤ 1 ∧ r * ‖d‖⁻¹ * ‖d‖ = r := by
  constructor
  · rw [← div_eq_mul_inv]
    exact div_le_one_of_le₀ hd (norm_nonneg d)
  · by_cases hzero : ‖d‖ = 0
    · have hnone : r = 0 := le_antisymm (hzero ▸ hd) hr
      rw [hnone, zero_mul, zero_mul]
    · rw [mul_assoc, inv_mul_cancel₀ hzero, mul_one]

/-- Seen from outside, a far side is in no axis farther from the center than the point that it is seen
from. -/
lemma abs_farSide_sub_le (hs : s.isValid = true)
    (hp : s.radius.toReal ≤ ‖p.point - s.center.point‖) (i : Fin 3) :
    |(s.farSide p).point i - s.center.point i| ≤ |p.point i - s.center.point i| := by
  have hradius := isValid_iff.1 hs
  have hnonneg : 0 ≤ s.radius.toReal * ‖p.point - s.center.point‖⁻¹ := by positivity
  rw [farSide_apply, sub_sub_cancel_left, abs_neg, abs_mul, abs_of_nonneg hnonneg]
  exact mul_le_of_le_one_left (abs_nonneg _) (part_of_way hradius hp).1

/-- If no corner lies inside the sphere, then the enclosing box is in no axis farther from the center
than the farthest corner. -/
lemma within_farthest (hs : s.isValid = true) (he : e.Encloses b (s.farSides b))
    (hcorners : ∀ j < 8, s.radius.toReal ≤ ‖(b.corner j).point - s.center.point‖) {w : ℝ} {i : Fin 3}
    (hmin : |b.min.point i - s.center.point i| ≤ w) (hmax : |b.max.point i - s.center.point i| ≤ w) :
    s.center.point i - w ≤ e.min.point i ∧ e.max.point i ≤ s.center.point i + w := by
  refine he.least i _ _ ?_ ?_ (List.forall_mem_map.2 fun j hj => ?_)
  · linarith [(abs_le.1 hmin).1]
  · linarith [(abs_le.1 hmax).2]
  · have hcorner : |(b.corner j).point i - s.center.point i| ≤ w := by
      rw [Box.point_corner]
      split
      · exact hmax
      · exact hmin
    have hfar := (abs_farSide_sub_le hs (hcorners j (List.mem_range.1 hj)) i).trans hcorner
    exact ⟨by linarith [(abs_le.1 hfar).1], by linarith [(abs_le.1 hfar).2]⟩

/-- An interval around a center with a point at its end, and with something at least as far as a
fraction of the way on the other side: its middle moves by no more than what is left of the way, and
its length is at least the whole way. -/
lemma axis_bounds {c p low high t : ℝ} (ht : 0 ≤ t) (ht' : t ≤ 1) (hp : low ≤ p ∧ p ≤ high)
    (hfar : low ≤ c - t * (p - c) ∧ c - t * (p - c) ≤ high) (hlow : c - |p - c| ≤ low)
    (hhigh : high ≤ c + |p - c|) :
    |c - 1 / 2 * (low + high)| ≤ |(1 - t) / 2 * (p - c)| ∧
      |(1 + t) / 2 * (p - c)| ≤ |1 / 2 * (high - low)| := by
  have hleft : (1 - t) / 2 * (p - c) = (p - c - t * (p - c)) / 2 := by ring
  have hright : (1 + t) / 2 * (p - c) = (p - c + t * (p - c)) / 2 := by ring
  rw [hleft, hright]
  rcases le_total 0 (p - c) with hsign | hsign
  · have hpart : 0 ≤ t * (p - c) := mul_nonneg ht hsign
    have hpart' : t * (p - c) ≤ p - c := mul_le_of_le_one_left hsign ht'
    rw [abs_of_nonneg hsign] at hlow hhigh
    rw [abs_of_nonneg (by linarith : 0 ≤ (p - c - t * (p - c)) / 2),
      abs_of_nonneg (by linarith : 0 ≤ (p - c + t * (p - c)) / 2)]
    refine ⟨abs_le.2 ⟨?_, ?_⟩, le_trans ?_ (le_abs_self _)⟩ <;> linarith
  · have hpart : t * (p - c) ≤ 0 := mul_nonpos_of_nonneg_of_nonpos ht hsign
    have hpart' : p - c ≤ t * (p - c) := by nlinarith
    rw [abs_of_nonpos hsign] at hlow hhigh
    rw [abs_of_nonpos (by linarith : (p - c - t * (p - c)) / 2 ≤ 0),
      abs_of_nonpos (by linarith : (p - c + t * (p - c)) / 2 ≤ 0)]
    refine ⟨abs_le.2 ⟨?_, ?_⟩, le_trans ?_ (le_abs_self _)⟩ <;> linarith

/-- If no corner lies inside the sphere, then the radius grows by no less than the center moves. -/
lemma dist_add_radius_le (hs : s.isValid = true) (hb : b.isValid = true)
    (he : e.Encloses b (s.farSides b))
    (hcorners : ∀ k < 8, s.radius.toReal ≤ ‖(b.corner k).point - s.center.point‖) :
    dist s.center.point e.center.point + s.radius.toReal ≤ e.radius.toReal := by
  obtain ⟨k, hk, hfarthest⟩ := b.exists_farthest s.center.point
  obtain ⟨hle, hway⟩ := part_of_way (isValid_iff.1 hs) (hcorners k hk)
  set c := s.center.point
  set d := (b.corner k).point - c
  set t := s.radius.toReal * ‖d‖⁻¹
  have hnonneg : 0 ≤ t := mul_nonneg (isValid_iff.1 hs) (inv_nonneg.2 (norm_nonneg d))
  have hbounds : ∀ i, |c i - 1 / 2 * (e.min.point i + e.max.point i)| ≤ |(1 - t) / 2 * d i| ∧
      |(1 + t) / 2 * d i| ≤ |1 / 2 * (e.max.point i - e.min.point i)| := by
    intro i
    obtain ⟨hlow, hhigh⟩ := b.corner_mem hb k i
    have hopposite := he.holds _ (List.mem_map_of_mem (List.mem_range.2 hk)) i
    rw [farSide_apply] at hopposite
    obtain ⟨hmin, hmax⟩ := within_farthest hs he hcorners (hfarthest i).1 (hfarthest i).2
    exact axis_bounds hnonneg hle ⟨(he.around i).1.trans hlow, hhigh.trans (he.around i).2⟩ hopposite
      hmin hmax
  have hmove : dist c e.center.point ≤ (‖d‖ - t * ‖d‖) / 2 :=
    calc dist c e.center.point
        = ‖c - (1 / 2 : ℝ) • (e.min.point + e.max.point)‖ := by rw [dist_eq_norm, Box.point_center]
      _ ≤ ‖((1 - t) / 2) • d‖ := norm_le_of_abs_le fun i => (hbounds i).1
      _ = (‖d‖ - t * ‖d‖) / 2 := by
        rw [norm_smul, Real.norm_of_nonneg (by linarith)]
        ring
  have hgrow : (‖d‖ + t * ‖d‖) / 2 ≤ e.radius.toReal :=
    calc (‖d‖ + t * ‖d‖) / 2 = ‖((1 + t) / 2) • d‖ := by
          rw [norm_smul, Real.norm_of_nonneg (by linarith)]
          ring
      _ ≤ ‖(1 / 2 : ℝ) • (e.max.point - e.min.point)‖ := norm_le_of_abs_le fun i => (hbounds i).2
      _ = e.radius.toReal := Box.toReal_radius.symm
  linarith

/-- **A sphere that grows by a box holds the box, and what it held before if no corner of the box lay
inside.** -/
theorem contains_expandByBox (s : Sphere Exact) (b : Box Exact) (hs : s.isValid = true)
    (hb : b.isValid = true) :
    (∀ p, b.contains p = true → (s.expandByBox b).contains p = true) ∧
      ((∀ k < 8, Scalar.le s.radius2 (s.center.distanceSquared (b.corner k)) = true) →
        ∀ p, s.contains p = true → (s.expandByBox b).contains p = true) := by
  obtain ⟨e, hgrown, he⟩ := exists_encloses hs hb
  rw [hgrown]
  constructor
  · intro p hp
    refine contains_iff.2 (Box.dist_center_le fun i => ?_)
    obtain ⟨hlow, hhigh⟩ := Box.contains_iff.1 hp i
    exact ⟨(he.around i).1.trans hlow, hhigh.trans (he.around i).2⟩
  · intro houtside p hp
    have hcorners : ∀ k < 8, s.radius.toReal ≤ ‖(b.corner k).point - s.center.point‖ := by
      intro k hk
      have hle := Exact.le_iff.1 (houtside k hk)
      rw [radius2, Exact.toReal_mul, ← pow_two, Vec3.toReal_distanceSquared, dist_comm,
        dist_eq_norm] at hle
      exact (pow_le_pow_iff_left₀ (isValid_iff.1 hs) (norm_nonneg _) two_ne_zero).1 hle
    have hgrows := dist_add_radius_le hs hb he hcorners
    have hheld := contains_iff.1 hp
    have htriangle := dist_triangle p.point s.center.point e.center.point
    exact contains_iff.2 (by linarith)

/-- A unit sphere grows by a box that is away from it. -/
theorem contains_expandByBox_apart :
    let s : Sphere Exact := ⟨Vec3.zero, Scalar.one⟩
    let b : Box Exact := ⟨Vec3.splat Scalar.one, Vec3.splat (Scalar.one + Scalar.one)⟩
    s.isValid = true ∧ b.isValid = true ∧
      (∀ k < 8, Scalar.le s.radius2 (s.center.distanceSquared (b.corner k)) = true) ∧
        (∀ p, b.contains p = true → (s.expandByBox b).contains p = true) ∧
          ∀ p, s.contains p = true → (s.expandByBox b).contains p = true := by
  intro s b
  have hs : s.isValid = true := isValid_iff.2 zero_le_one
  have hb : b.isValid = true := by
    simp [b, Box.isValid, Vec3.allLe, Vec3.splat]
  have houtside : ∀ k < 8, Scalar.le s.radius2 (s.center.distanceSquared (b.corner k)) = true := by
    intro k _
    have hfirst : 1 ≤ (b.corner k).point 0 := (Box.corner_mem hb k 0).1
    have hle : |(b.corner k).point 0| ≤ ‖(b.corner k).point‖ :=
      PiLp.norm_apply_le (b.corner k).point 0
    have hcenter : s.center.point = 0 := Vec3.point_zero
    rw [Exact.le_iff, Vec3.toReal_distanceSquared, hcenter, dist_zero_left]
    exact (mul_one (1 : ℝ)).le.trans (one_le_pow₀ (hfirst.trans ((le_abs_self _).trans hle)))
  obtain ⟨hbox, hsphere⟩ := contains_expandByBox s b hs hb
  exact ⟨hs, hb, houtside, hbox, hsphere houtside⟩

/-- Growing by a point inside makes the radius less. -/
lemma radius_lt_of_inside (hs : s.isValid = true) (hpoint : b.max = b.min)
    (he : e.Encloses b (s.farSides b))
    (hinside : ‖b.min.point - s.center.point‖ < s.radius.toReal) :
    e.radius.toReal < s.radius.toReal := by
  set c := s.center.point
  set r := s.radius.toReal
  set d := b.min.point - c
  have hradius : 0 ≤ r := isValid_iff.1 hs
  have hcorner : ∀ k, (b.corner k).point = b.min.point := fun k => by
    ext i
    rw [Box.point_corner, hpoint, ite_self]
  have hfar : ∀ k i, (s.farSide (b.corner k)).point i = c i - r * ‖d‖⁻¹ * d i := fun k i => by
    rw [farSide_apply, hcorner]
    rfl
  have hbounds : ∀ i, |1 / 2 * (e.max.point i - e.min.point i)| ≤ |(1 + r * ‖d‖⁻¹) / 2 * d i| := by
    intro i
    have hlength : |e.max.point i - e.min.point i| ≤ |b.min.point i - (c i - r * ‖d‖⁻¹ * d i)| :=
      he.length_le hpoint (List.forall_mem_map.2 fun k _ => hfar k i)
    have hway : (1 + r * ‖d‖⁻¹) / 2 * d i = 1 / 2 * (b.min.point i - (c i - r * ‖d‖⁻¹ * d i)) := by
      have hd : d i = b.min.point i - c i := rfl
      rw [hd]
      ring
    rw [hway, abs_mul, abs_mul]
    exact mul_le_mul_of_nonneg_left hlength (abs_nonneg _)
  have hpart : r * ‖d‖⁻¹ * ‖d‖ ≤ r := by
    rw [mul_assoc]
    exact mul_le_of_le_one_right hradius inv_mul_le_one
  calc e.radius.toReal = ‖(1 / 2 : ℝ) • (e.max.point - e.min.point)‖ := Box.toReal_radius
    _ ≤ ‖((1 + r * ‖d‖⁻¹) / 2) • d‖ := norm_le_of_abs_le hbounds
    _ = (‖d‖ + r * ‖d‖⁻¹ * ‖d‖) / 2 := by
      rw [norm_smul, Real.norm_of_nonneg (by positivity)]
      ring
    _ < r := by linarith

/-- A sphere that holds another one has no smaller radius: the ends of a diameter are too far apart. -/
lemma radius_le_of_contains {s' : Sphere Exact} (hs : s.isValid = true)
    (h : ∀ p, s.contains p = true → s'.contains p = true) :
    s.radius.toReal ≤ s'.radius.toReal := by
  set r := s.radius.toReal
  have hradius : 0 ≤ r := isValid_iff.1 hs
  have hpole : ∀ x, |x| = r →
      dist (s.center.point + EuclideanSpace.single 0 x) s'.center.point ≤ s'.radius.toReal := by
    intro x hx
    have hpoint : (⟨⟨s.center.x.toReal + x⟩, s.center.y, s.center.z⟩ : Vec3 Exact).point =
        s.center.point + EuclideanSpace.single 0 x := by
      ext i
      fin_cases i <;> simp [Vec3.point]
    rw [← hpoint]
    refine contains_iff.1 (h _ (contains_iff.2 ?_))
    rw [hpoint, dist_self_add_left, PiLp.norm_single, Real.norm_eq_abs, hx]
  have hleft := hpole r (abs_of_nonneg hradius)
  have hright := hpole (-r) (by rw [abs_neg, abs_of_nonneg hradius])
  have hapart : dist (s.center.point + EuclideanSpace.single 0 r)
      (s.center.point + EuclideanSpace.single 0 (-r)) = 2 * r := by
    rw [dist_add_left, PiLp.dist_single_same, Real.dist_eq, sub_neg_eq_add, ← two_mul,
      abs_of_nonneg (by linarith)]
  have htriangle := dist_triangle_right (s.center.point + EuclideanSpace.single 0 r)
    (s.center.point + EuclideanSpace.single 0 (-r)) s'.center.point
  linarith

/-- **A sphere that grows by a point strictly inside loses points.** -/
theorem exists_lost (hs : s.isValid = true) (hpoint : b.max = b.min)
    (hinside : Scalar.lt (s.center.distanceSquared b.min) s.radius2 = true) :
    ∃ p, s.contains p = true ∧ (s.expandByBox b).contains p = false := by
  have hb : b.isValid = true := Box.isValid_iff.2 fun i => (congrArg (fun v => v.point i) hpoint).ge
  obtain ⟨e, hgrown, he⟩ := exists_encloses hs hb
  have hshrinks : (s.expandByBox b).radius.toReal < s.radius.toReal := by
    rw [hgrown]
    refine radius_lt_of_inside hs hpoint he ?_
    rw [Exact.lt_iff, radius2, Exact.toReal_mul, ← pow_two, Vec3.toReal_distanceSquared, dist_comm,
      dist_eq_norm] at hinside
    exact (pow_lt_pow_iff_left₀ (norm_nonneg _) (isValid_iff.1 hs) two_ne_zero).1 hinside
  by_contra! hall
  refine hshrinks.not_ge (radius_le_of_contains hs fun p hp => ?_)
  exact Bool.eq_true_of_not_eq_false (hall p hp)

end Sphere

end SceneShading
