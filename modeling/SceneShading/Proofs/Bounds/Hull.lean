import Mathlib.Tactic
import SceneShading.Bounds.Box

/-!
# Growing a box from nothing

A box that starts out invalid and grows by points and boxes becomes the hull of what it grew by: its
corners are the least and greatest coordinates of all points and of the corners of all valid boxes
(`Box.hull_grown`). Neither the order of the calls nor their repetition plays a part in that, up to the
sign of a zero.

The numbers here are single precision ones, infinities included. They are compared through their ranks,
in which the two infinities are the ends of all numbers (`Binary32.rank_le_posInf`), so that the box that
bounds nothing is neutral. What a box spans is said by universal properties in the ranks
(`Box.Spans`): one call takes them along (`Box.Spans.grow`), so every run does (`Box.spans_grown`), and
they determine the ranks of the corners.
-/

namespace SceneShading

/-! ## Ranks of numbers -/

namespace Binary32

variable {a b c : Binary32}

lemma le_iff_rank : le a b = true ↔ a.isNaN = false ∧ b.isNaN = false ∧ a.rank ≤ b.rank := by
  simp [le, and_assoc]

lemma sameNumber_iff_rank :
    sameNumber a b = true ↔ a.isNaN = false ∧ b.isNaN = false ∧ a.rank = b.rank := by
  simp [sameNumber, and_assoc]

lemma beq_iff_rank : (a == b) = true ↔ a.isNaN = false ∧ b.isNaN = false ∧ a.rank = b.rank :=
  sameNumber_iff_rank

/-- The magnitude of a number is at most that of infinity. -/
lemma magnitude_le (h : a.isNaN = false) : a.magnitude ≤ infinityMagnitude := by
  simpa [isNaN] using h

/-- No number is above positive infinity. -/
lemma rank_le_posInf (h : a.isNaN = false) : a.rank ≤ posInf.rank := by
  have hle := magnitude_le h
  have hend : posInf.rank = infinityMagnitude := by decide
  rw [hend, rank]
  split <;> omega

/-- No number is below negative infinity. -/
lemma negInf_le_rank (h : a.isNaN = false) : negInf.rank ≤ a.rank := by
  have hle := magnitude_le h
  have hend : negInf.rank = -(infinityMagnitude : Int) := by decide
  rw [hend, rank]
  split <;> omega

/-- The selection of the smaller one of two numbers. -/
lemma rank_least (ha : a.isNaN = false) (hb : b.isNaN = false) :
    (Scalar.least a b).rank = min a.rank b.rank := by
  have hlt : Scalar.lt a b = true ↔ a.rank < b.rank := lt_iff ha hb
  unfold Scalar.least
  split
  next h => exact (min_eq_left (hlt.1 h).le).symm
  next h => exact (min_eq_right (not_lt.1 fun hless => h (hlt.2 hless))).symm

/-- The selection of the larger one of two numbers. -/
lemma rank_greatest (ha : a.isNaN = false) (hb : b.isNaN = false) :
    (Scalar.greatest a b).rank = max a.rank b.rank := by
  have hlt : Scalar.lt b a = true ↔ b.rank < a.rank := lt_iff hb ha
  unfold Scalar.greatest
  split
  next h => exact (max_eq_left (hlt.1 h).le).symm
  next h => exact (max_eq_right (not_lt.1 fun hless => h (hlt.2 hless))).symm

lemma isNaN_least (ha : a.isNaN = false) (hb : b.isNaN = false) :
    (Scalar.least a b).isNaN = false := by
  unfold Scalar.least
  split <;> assumption

lemma isNaN_greatest (ha : a.isNaN = false) (hb : b.isNaN = false) :
    (Scalar.greatest a b).isNaN = false := by
  unfold Scalar.greatest
  split <;> assumption

end Binary32

/-! ## Coordinates -/

namespace Vec3

variable {v w : Vec3 Binary32}

/-- The coordinate of a vector in an axis. -/
def axis (v : Vec3 Binary32) : Fin 3 → Binary32 := ![v.x, v.y, v.z]

lemma axis_least (i : Fin 3) : (v.least w).axis i = Scalar.least (v.axis i) (w.axis i) := by
  fin_cases i <;> rfl

lemma axis_greatest (i : Fin 3) :
    (v.greatest w).axis i = Scalar.greatest (v.axis i) (w.axis i) := by
  fin_cases i <;> rfl

lemma axis_splat (a : Binary32) (i : Fin 3) : (splat a).axis i = a := by
  fin_cases i <;> rfl

lemma allLe_iff_axis : v.allLe w = true ↔ ∀ i, Binary32.le (v.axis i) (w.axis i) = true := by
  change (Binary32.le v.x w.x && Binary32.le v.y w.y && Binary32.le v.z w.z) = true ↔ _
  simp [Fin.forall_fin_succ, axis, and_assoc]

lemma beq_iff_axis : (v == w) = true ↔ ∀ i, (v.axis i == w.axis i) = true := by
  change (v.x == w.x && (v.y == w.y && v.z == w.z)) = true ↔ _
  simp [Fin.forall_fin_succ, axis]

/-- No coordinate is undefined. -/
def IsNumber (p : Vec3 Binary32) : Prop := ∀ i, (p.axis i).isNaN = false

instance (p : Vec3 Binary32) : Decidable p.IsNumber :=
  inferInstanceAs (Decidable (∀ i, (p.axis i).isNaN = false))

end Vec3

namespace Box

open Vec3

variable {b e e' : Box Binary32} {p : Vec3 Binary32} {points points' : List (Vec3 Binary32)}

lemma axis_corner (b : Box Binary32) (k : Nat) (i : Fin 3) :
    (b.corner k).axis i = if k.testBit i then b.max.axis i else b.min.axis i := by
  fin_cases i <;> rfl

lemma isValid_iff_axis : b.isValid = true ↔ ∀ i, (b.min.axis i).isNaN = false ∧
    (b.max.axis i).isNaN = false ∧ (b.min.axis i).rank ≤ (b.max.axis i).rank := by
  rw [isValid, allLe_iff_axis]
  exact forall_congr' fun i => Binary32.le_iff_rank

/-! ## What a box spans -/

/-- The corners of a box are numbers, and their ranks are the greatest lower and the least upper bounds
of points in every axis; without points, they are the ends of all numbers of the wrong order. -/
structure Spans (e : Box Binary32) (points : List (Vec3 Binary32)) : Prop where
  corners : e.min.IsNumber ∧ e.max.IsNumber
  numbers : ∀ p ∈ points, p.IsNumber
  low : ∀ i r, r ≤ (e.min.axis i).rank ↔
    r ≤ Binary32.posInf.rank ∧ ∀ p ∈ points, r ≤ (p.axis i).rank
  high : ∀ i r, (e.max.axis i).rank ≤ r ↔
    Binary32.negInf.rank ≤ r ∧ ∀ p ∈ points, (p.axis i).rank ≤ r

/-- The box that bounds nothing spans no points. -/
lemma spans_invalid : invalid.Spans [] := by
  refine ⟨⟨fun i => ?_, fun i => ?_⟩, List.forall_mem_nil _, fun i r => ?_, fun i r => ?_⟩
  · rw [invalid, axis_splat]
    rfl
  · rw [invalid, axis_splat]
    rfl
  · simp [invalid, axis_splat]
  · simp [invalid, axis_splat]

/-- A box spans points if the ends of its diagonal are among them, and no point is beyond these. -/
lemma spans_of_mem (hmin : b.min ∈ points) (hmax : b.max ∈ points)
    (hnumbers : ∀ p ∈ points, p.IsNumber)
    (hbetween : ∀ p ∈ points, ∀ i, (b.min.axis i).rank ≤ (p.axis i).rank ∧
      (p.axis i).rank ≤ (b.max.axis i).rank) : b.Spans points := by
  refine ⟨⟨hnumbers _ hmin, hnumbers _ hmax⟩, hnumbers, fun i r => ⟨fun hr => ⟨?_, ?_⟩, fun hr => ?_⟩,
    fun i r => ⟨fun hr => ⟨?_, ?_⟩, fun hr => ?_⟩⟩
  · exact hr.trans (Binary32.rank_le_posInf (hnumbers _ hmin i))
  · exact fun p hp => hr.trans (hbetween p hp i).1
  · exact hr.2 _ hmin
  · exact (Binary32.negInf_le_rank (hnumbers _ hmax i)).trans hr
  · exact fun p hp => (hbetween p hp i).2.trans hr
  · exact hr.2 _ hmax

/-- The box of a single point. -/
lemma spans_point (hp : p.IsNumber) : (⟨p, p⟩ : Box Binary32).Spans [p] :=
  spans_of_mem List.mem_cons_self List.mem_cons_self (List.forall_mem_singleton.2 hp)
    (List.forall_mem_singleton.2 fun _ => ⟨le_rfl, le_rfl⟩)

/-- The corners of a box, by their numbers. -/
def corners (b : Box Binary32) : List (Vec3 Binary32) := (List.range 8).map b.corner

/-- A valid box spans its corners. -/
lemma spans_corners (hb : b.isValid = true) : b.Spans b.corners := by
  have hvalid := isValid_iff_axis.1 hb
  refine spans_of_mem (List.mem_map.2 ⟨0, by decide, rfl⟩) (List.mem_map.2 ⟨7, by decide, rfl⟩)
    (List.forall_mem_map.2 fun k _ i => ?_) (List.forall_mem_map.2 fun k _ i => ?_)
  · rw [axis_corner]
    split
    · exact (hvalid i).2.1
    · exact (hvalid i).1
  · rw [axis_corner]
    split
    · exact ⟨(hvalid i).2.2, le_rfl⟩
    · exact ⟨le_rfl, (hvalid i).2.2⟩

/-- The smaller and the larger coordinates of two boxes span what the two boxes span. -/
lemma Spans.union (h : e.Spans points) (h' : e'.Spans points') :
    (⟨e.min.least e'.min, e.max.greatest e'.max⟩ : Box Binary32).Spans (points ++ points') := by
  obtain ⟨hmin, hmax⟩ := h.corners
  obtain ⟨hmin', hmax'⟩ := h'.corners
  refine ⟨⟨fun i => ?_, fun i => ?_⟩, List.forall_mem_append.2 ⟨h.numbers, h'.numbers⟩, fun i r => ?_,
    fun i r => ?_⟩
  · rw [axis_least]
    exact Binary32.isNaN_least (hmin i) (hmin' i)
  · rw [axis_greatest]
    exact Binary32.isNaN_greatest (hmax i) (hmax' i)
  · rw [axis_least, Binary32.rank_least (hmin i) (hmin' i), le_min_iff, h.low, h'.low,
      List.forall_mem_append, and_and_and_comm, and_self]
  · rw [axis_greatest, Binary32.rank_greatest (hmax i) (hmax' i), max_le_iff, h.high, h'.high,
      List.forall_mem_append, and_and_and_comm, and_self]

/-! ## What follows for the box -/

/-- The numbers of the box are least and greatest coordinates of points: it reaches a point on each
side of each axis, and goes beyond none. -/
structure IsHull (e : Box Binary32) (points : List (Vec3 Binary32)) : Prop where
  least : ∀ i, (∃ p ∈ points, (e.min.axis i == p.axis i) = true) ∧
    ∀ p ∈ points, Binary32.le (e.min.axis i) (p.axis i) = true
  greatest : ∀ i, (∃ p ∈ points, (e.max.axis i == p.axis i) = true) ∧
    ∀ p ∈ points, Binary32.le (p.axis i) (e.max.axis i) = true

lemma Spans.low_le (h : e.Spans points) (hp : p ∈ points) (i : Fin 3) :
    (e.min.axis i).rank ≤ (p.axis i).rank :=
  ((h.low i _).1 le_rfl).2 p hp

lemma Spans.le_high (h : e.Spans points) (hp : p ∈ points) (i : Fin 3) :
    (p.axis i).rank ≤ (e.max.axis i).rank :=
  ((h.high i _).1 le_rfl).2 p hp

/-- A box that spans points is their hull: if it went beyond all of them, then so would a number that
is farther inside. -/
lemma Spans.isHull (h : e.Spans points) (hne : points ≠ []) : e.IsHull points := by
  obtain ⟨hmin, hmax⟩ := h.corners
  obtain ⟨q, hq⟩ := List.exists_mem_of_ne_nil points hne
  refine ⟨fun i => ⟨?_, fun p hp => Binary32.le_iff_rank.2 ⟨hmin i, h.numbers p hp i, h.low_le hp i⟩⟩,
    fun i => ⟨?_, fun p hp => Binary32.le_iff_rank.2 ⟨h.numbers p hp i, hmax i, h.le_high hp i⟩⟩⟩
  · by_contra! hnone
    have habove : ∀ p ∈ points, (e.min.axis i).rank + 1 ≤ (p.axis i).rank := by
      intro p hp
      refine lt_of_le_of_ne (h.low_le hp i) fun heq => hnone p hp ?_
      exact Binary32.beq_iff_rank.2 ⟨hmin i, h.numbers p hp i, heq⟩
    have hend := (habove q hq).trans (Binary32.rank_le_posInf (h.numbers q hq i))
    exact absurd ((h.low i _).2 ⟨hend, habove⟩) (by omega)
  · by_contra! hnone
    have hbelow : ∀ p ∈ points, (p.axis i).rank ≤ (e.max.axis i).rank - 1 := by
      intro p hp
      refine Int.le_sub_one_of_lt (lt_of_le_of_ne (h.le_high hp i) fun heq => hnone p hp ?_)
      exact Binary32.beq_iff_rank.2 ⟨hmax i, h.numbers p hp i, heq.symm⟩
    have hend := (Binary32.negInf_le_rank (h.numbers q hq i)).trans (hbelow q hq)
    exact absurd ((h.high i _).2 ⟨hend, hbelow⟩) (by omega)

/-- A point lies in a box exactly if its coordinates lie between those of the corners. -/
lemma contains_iff_axis : e.contains p = true ↔ ∀ i, Binary32.le (e.min.axis i) (p.axis i) = true ∧
    Binary32.le (p.axis i) (e.max.axis i) = true := by
  rw [contains, Bool.and_eq_true, Bool.and_eq_true, allLe_iff_axis, allLe_iff_axis, isValid_iff_axis,
    forall_and (p := fun i => Binary32.le (e.min.axis i) (p.axis i) = true), and_assoc]
  refine and_iff_right_of_imp ?_
  rintro ⟨hlow, hhigh⟩ i
  obtain ⟨hmin, -, hle⟩ := Binary32.le_iff_rank.1 (hlow i)
  obtain ⟨-, hmax, hle'⟩ := Binary32.le_iff_rank.1 (hhigh i)
  exact ⟨hmin, hmax, hle.trans hle'⟩

/-- Only a valid box holds something. -/
lemma isValid_of_contains (h : e.contains p = true) : e.isValid = true := by
  rw [contains, Bool.and_eq_true, Bool.and_eq_true] at h
  exact h.1.1

/-- A hull holds its points. -/
lemma IsHull.contains (h : e.IsHull points) (hp : p ∈ points) : e.contains p = true :=
  contains_iff_axis.2 fun i => ⟨(h.least i).2 p hp, (h.greatest i).2 p hp⟩

/-- A box that spans something is valid. -/
lemma Spans.isValid_iff (h : e.Spans points) : e.isValid = true ↔ points ≠ [] := by
  constructor
  · rintro hvalid rfl
    have hends : Binary32.posInf.rank ≤ (e.min.axis 0).rank ∧
        (e.max.axis 0).rank ≤ Binary32.negInf.rank :=
      ⟨(h.low 0 _).2 ⟨le_rfl, List.forall_mem_nil _⟩, (h.high 0 _).2 ⟨le_rfl, List.forall_mem_nil _⟩⟩
    have hordered := (isValid_iff_axis.1 hvalid 0).2.2
    have hwrong : ¬Binary32.posInf.rank ≤ Binary32.negInf.rank := by decide
    exact hwrong (hends.1.trans (hordered.trans hends.2))
  · intro hne
    obtain ⟨p, hp⟩ := List.exists_mem_of_ne_nil points hne
    exact isValid_of_contains ((h.isHull hne).contains hp)

/-- A box that spans more holds more. -/
lemma Spans.contains_mono (h : e.Spans points) (h' : e'.Spans points') (hsub : points ⊆ points')
    (hp : e.contains p = true) : e'.contains p = true := by
  refine contains_iff_axis.2 fun i => ?_
  obtain ⟨hlow, hhigh⟩ := contains_iff_axis.1 hp i
  obtain ⟨-, hnumber, hle⟩ := Binary32.le_iff_rank.1 hlow
  obtain ⟨-, -, hle'⟩ := Binary32.le_iff_rank.1 hhigh
  have hmin : (e'.min.axis i).rank ≤ (e.min.axis i).rank :=
    (h.low i _).2 ⟨Binary32.rank_le_posInf (h'.corners.1 i), fun q hq => h'.low_le (hsub hq) i⟩
  have hmax : (e.max.axis i).rank ≤ (e'.max.axis i).rank :=
    (h.high i _).2 ⟨Binary32.negInf_le_rank (h'.corners.2 i), fun q hq => h'.le_high (hsub hq) i⟩
  exact ⟨Binary32.le_iff_rank.2 ⟨h'.corners.1 i, hnumber, hmin.trans hle⟩,
    Binary32.le_iff_rank.2 ⟨hnumber, h'.corners.2 i, hle'.trans hmax⟩⟩

/-- Boxes that span the same points have the same coordinates. -/
lemma Spans.beq (h : e.Spans points) (h' : e'.Spans points') (hsame : ∀ p, p ∈ points ↔ p ∈ points') :
    (e == e') = true := by
  change (e.min == e'.min && e.max == e'.max) = true
  rw [Bool.and_eq_true, beq_iff_axis, beq_iff_axis]
  refine ⟨fun i => Binary32.beq_iff_rank.2 ⟨h.corners.1 i, h'.corners.1 i, ?_⟩,
    fun i => Binary32.beq_iff_rank.2 ⟨h.corners.2 i, h'.corners.2 i, ?_⟩⟩
  · exact eq_of_forall_le_iff fun r => by simp only [h.low, h'.low, hsame]
  · exact eq_of_forall_ge_iff fun r => by simp only [h.high, h'.high, hsame]

/-! ## Runs -/

/-- What a box can be asked to grow by. -/
inductive Growth where
  | point (p : Vec3 Binary32)
  | box (b : Box Binary32)

namespace Growth

/-- The box after one call. -/
def apply (e : Box Binary32) : Growth → Box Binary32
  | point p => e.expandByPoint p
  | box b => e.expandByBox b

/-- The points that a box is to be grown around: a point itself, the corners of a valid box, and nothing
for an invalid one. -/
def spanned : Growth → List (Vec3 Binary32)
  | point p => [p]
  | box b => if b.isValid then b.corners else []

/-- Points have no undefined coordinates; a box may be anything. -/
def IsDefined : Growth → Prop
  | point p => p.IsNumber
  | box _ => True

/-- The call is given a point or a valid box. -/
def IsSolid : Growth → Prop
  | point _ => True
  | box b => b.isValid = true

lemma spanned_ne_nil_iff (c : Growth) : c.spanned ≠ [] ↔ c.IsSolid := by
  cases c with
  | point p => simp [spanned, IsSolid]
  | box b =>
    rw [spanned, IsSolid]
    split
    next h => simp [h, corners]
    next h => simp [h]

/-- A call without points changes nothing. -/
lemma apply_of_not_isSolid {c : Growth} (h : ¬c.IsSolid) (e : Box Binary32) : apply e c = e := by
  cases c with
  | point p => exact absurd trivial h
  | box b => exact expandByBox_of_not_isValid (Bool.eq_false_of_not_eq_true h)

end Growth

/-- One call takes along what the box spans. -/
lemma Spans.grow (h : e.Spans points) {c : Growth} (hc : c.IsDefined) :
    (c.apply e).Spans (points ++ c.spanned) := by
  cases c with
  | point p => exact h.union (spans_point hc)
  | box b =>
    rw [Growth.spanned]
    split
    next hb =>
      rw [Growth.apply, expandByBox, if_pos hb]
      exact h.union (spans_corners hb)
    next hb =>
      rw [Growth.apply_of_not_isSolid (c := .box b) hb, List.append_nil]
      exact h

/-- The box after a run of calls. -/
def grown (calls : List Growth) : Box Binary32 := calls.foldl Growth.apply invalid

/-- A run makes a box that spans the points of all calls. -/
lemma spans_grown {calls : List Growth} (h : ∀ c ∈ calls, c.IsDefined) :
    (grown calls).Spans (calls.flatMap Growth.spanned) := by
  induction calls using List.reverseRecOn with
  | nil => exact spans_invalid
  | append_singleton calls c ih =>
    obtain ⟨hcalls, hc⟩ := List.forall_mem_append.1 h
    rw [grown, List.foldl_concat, List.flatMap_append, List.flatMap_singleton]
    exact (ih hcalls).grow (hc c List.mem_cons_self)

/-- A run without points leaves the box as it was. -/
lemma grown_eq_invalid {calls : List Growth} (h : ∀ c ∈ calls, ¬c.IsSolid) :
    grown calls = invalid := by
  induction calls using List.reverseRecOn with
  | nil => rfl
  | append_singleton calls c ih =>
    obtain ⟨hcalls, hc⟩ := List.forall_mem_append.1 h
    rw [grown, List.foldl_concat, Growth.apply_of_not_isSolid (hc c List.mem_cons_self)]
    exact ih hcalls

lemma flatMap_spanned_ne_nil_iff (calls : List Growth) :
    calls.flatMap Growth.spanned ≠ [] ↔ ∃ c ∈ calls, c.IsSolid := by
  simp only [ne_eq, List.flatMap_eq_nil_iff, not_forall, exists_prop, ← Growth.spanned_ne_nil_iff]

/-- **A box that grows from nothing is the hull of what it grew by.** It is valid exactly if a point or a
valid box is among the calls, and otherwise bounds nothing as before. It holds every point, what any
box among the calls holds, and what it held at any time before; and in another order, or with
repetitions, the same calls give the same coordinates. -/
theorem hull_grown (calls : List Growth) (h : ∀ c ∈ calls, c.IsDefined) :
    ((grown calls).isValid = true ↔ ∃ c ∈ calls, c.IsSolid) ∧
      ((∃ c ∈ calls, c.IsSolid) → (grown calls).IsHull (calls.flatMap Growth.spanned)) ∧
      ((¬∃ c ∈ calls, c.IsSolid) → grown calls = invalid) ∧
      (∀ calls', (∀ c, c ∈ calls' ↔ c ∈ calls) → (grown calls' == grown calls) = true) ∧
      (∀ p, .point p ∈ calls → (grown calls).contains p = true) ∧
      (∀ b p, .box b ∈ calls → b.contains p = true → (grown calls).contains p = true) ∧
      ∀ earlier later p, calls = earlier ++ later → (grown earlier).contains p = true →
        (grown calls).contains p = true := by
  have hspans := spans_grown h
  have hsome := flatMap_spanned_ne_nil_iff calls
  refine ⟨hspans.isValid_iff.trans hsome, fun hsolid => hspans.isHull (hsome.2 hsolid),
    fun hnone => grown_eq_invalid fun c hc hsolid => hnone ⟨c, hc, hsolid⟩, ?_, ?_, ?_, ?_⟩
  · intro calls' hsame
    have hspans' := spans_grown fun c hc => h c ((hsame c).1 hc)
    exact hspans'.beq hspans fun p => by simp only [List.mem_flatMap, hsame]
  · intro p hp
    have hsolid : ∃ c ∈ calls, c.IsSolid := ⟨_, hp, trivial⟩
    exact (hspans.isHull (hsome.2 hsolid)).contains
      (List.mem_flatMap.2 ⟨_, hp, List.mem_cons_self⟩)
  · intro b p hb hp
    have hvalid := isValid_of_contains hp
    refine (spans_corners hvalid).contains_mono hspans (fun q hq => ?_) hp
    exact List.mem_flatMap.2 ⟨_, hb, by rwa [Growth.spanned, if_pos hvalid]⟩
  · rintro earlier later p rfl hp
    have hearlier := spans_grown (List.forall_mem_append.1 h).1
    refine hearlier.contains_mono hspans ?_ hp
    rw [List.flatMap_append]
    exact List.subset_append_left _ _

/-- A run with a box that bounds nothing, an undefined box, an infinite coordinate, both zeros and a
repeated call. -/
def mixedGrowth : List Growth :=
  [.box invalid, .point ⟨⟨0x80000000⟩, Binary32.posInf, Binary32.one⟩,
    .box ⟨Vec3.splat ⟨0x7fc00000⟩, Vec3.splat Binary32.one⟩,
    .box ⟨Vec3.splat Binary32.zero, Vec3.splat Binary32.half⟩,
    .point ⟨⟨0x80000000⟩, Binary32.posInf, Binary32.one⟩]

theorem hull_grown_mixedGrowth :
    (∀ c ∈ mixedGrowth, c.IsDefined) ∧ (grown mixedGrowth).isValid = true ∧
      (grown mixedGrowth).IsHull (mixedGrowth.flatMap Growth.spanned) ∧
      (grown mixedGrowth.reverse == grown mixedGrowth) = true ∧
      (grown mixedGrowth).contains (Vec3.splat Binary32.quarter) = true ∧
      ∀ p, (grown (mixedGrowth.take 2)).contains p = true → (grown mixedGrowth).contains p = true := by
  have hdefined : ∀ c ∈ mixedGrowth, c.IsDefined := by
    refine List.forall_mem_cons.2 ⟨trivial, List.forall_mem_cons.2 ⟨?_, List.forall_mem_cons.2
      ⟨trivial, List.forall_mem_cons.2 ⟨trivial, List.forall_mem_singleton.2 ?_⟩⟩⟩⟩
    all_goals
      change Vec3.IsNumber _
      decide
  have hsolid : ∃ c ∈ mixedGrowth, c.IsSolid := ⟨_, List.mem_cons_of_mem _ List.mem_cons_self, trivial⟩
  obtain ⟨hvalid, hhull, -, hsame, -, hbox, hkept⟩ := hull_grown mixedGrowth hdefined
  refine ⟨hdefined, hvalid.2 hsolid, hhull hsolid, hsame _ fun c => List.mem_reverse,
    hbox ⟨Vec3.splat Binary32.zero, Vec3.splat Binary32.half⟩ _ (by simp [mixedGrowth]) (by decide),
    fun p => hkept _ (mixedGrowth.drop 2) p (List.take_append_drop 2 _).symm⟩

end Box

end SceneShading
