import SceneShading.Numeric.Scalar

/-!
# Single precision numbers

A `Binary32` is the bit pattern of an IEEE 754 single precision number. Order and equality are
defined on the bits, through `Binary32.rank`: the patterns of one sign are ordered like their
magnitudes, both zeros have rank `0`, and a pattern that is not a number compares with nothing.
Arithmetic rounds every operation to single precision.
-/

namespace SceneShading

/-- A single precision number, given by its bits. -/
structure Binary32 where
  bits : UInt32
deriving Repr, Inhabited

namespace Binary32

/-- The bits below the sign, as a number. -/
def magnitude (x : Binary32) : Nat := x.bits.toNat % 0x80000000

/-- The sign bit. -/
def isNegative (x : Binary32) : Bool := 0x80000000 ≤ x.bits.toNat

/-- The magnitude bits of infinity; larger magnitudes are not numbers. -/
def infinityMagnitude : Nat := 0x7f800000

/-- True of the patterns that are not numbers. -/
def isNaN (x : Binary32) : Bool := infinityMagnitude < x.magnitude

/-- True of the patterns that are neither infinite nor undefined. -/
def isFinite (x : Binary32) : Bool := x.magnitude < infinityMagnitude

/-- The place of a number in the order of all numbers; both zeros have place `0`. -/
def rank (x : Binary32) : Int := if x.isNegative then -(x.magnitude : Int) else x.magnitude

/-- Strictly below, in the numeric order. -/
def lt (a b : Binary32) : Bool := !a.isNaN && !b.isNaN && decide (a.rank < b.rank)

/-- Below or equal, in the numeric order. -/
def le (a b : Binary32) : Bool := !a.isNaN && !b.isNaN && decide (a.rank ≤ b.rank)

/-- Numeric equality: the zeros are equal, and nothing equals an undefined pattern. -/
def sameNumber (a b : Binary32) : Bool := !a.isNaN && !b.isNaN && decide (a.rank = b.rank)

instance : BEq Binary32 := ⟨sameNumber⟩

/-- The nearest single precision number. -/
def ofFloat (x : Float) : Binary32 := ⟨x.toFloat32.toBits⟩

/-- The value, which every double precision number has room for. -/
def toFloat (x : Binary32) : Float := (Float32.ofBits x.bits).toFloat

/-- A single precision operation on two patterns. -/
def lift₂ (f : Float32 → Float32 → Float32) (a b : Binary32) : Binary32 :=
  ⟨(f (Float32.ofBits a.bits) (Float32.ofBits b.bits)).toBits⟩

/-- The square root. -/
def sqrt (a : Binary32) : Binary32 := ⟨(Float32.ofBits a.bits).sqrt.toBits⟩

/-- The cosine of an angle in radians, rounded once from double precision. -/
def cos (a : Binary32) : Binary32 := ofFloat a.toFloat.cos

/-- Zero. -/
def zero : Binary32 := ⟨0⟩

/-- One. -/
def one : Binary32 := ⟨0x3f800000⟩

/-- Minus one. -/
def negOne : Binary32 := ⟨0xbf800000⟩

/-- One half. -/
def half : Binary32 := ⟨0x3f000000⟩

/-- One quarter. -/
def quarter : Binary32 := ⟨0x3e800000⟩

/-- Positive infinity. -/
def posInf : Binary32 := ⟨0x7f800000⟩

/-- Negative infinity. -/
def negInf : Binary32 := ⟨0xff800000⟩

/-- Radians in one degree. -/
def radiansPerDegree : Binary32 := ⟨0x3c8efa35⟩

instance : Scalar Binary32 where
  add := lift₂ (· + ·)
  sub := lift₂ (· - ·)
  mul := lift₂ (· * ·)
  div := lift₂ (· / ·)
  zero := zero
  one := one
  half := half
  quarter := quarter
  sqrt := sqrt
  lt := lt
  le := le
  isFinite := isFinite

/-- An angle in degrees as radians. -/
def toRadians (degrees : Binary32) : Binary32 := degrees * radiansPerDegree

theorem lt_iff {a b : Binary32} (ha : a.isNaN = false) (hb : b.isNaN = false) :
    lt a b = true ↔ a.rank < b.rank := by simp [lt, ha, hb]

theorem le_iff {a b : Binary32} (ha : a.isNaN = false) (hb : b.isNaN = false) :
    le a b = true ↔ a.rank ≤ b.rank := by simp [le, ha, hb]

end Binary32

end SceneShading
