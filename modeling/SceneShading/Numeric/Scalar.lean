/-!
# Scalars

Bounding volumes are written once, over any type with the arithmetic they need. Running them at
binary floating point gives the numbers a renderer sees; reading them over an ordered field gives
the geometry that the rounding approximates.

The two selections `Scalar.least` and `Scalar.greatest` are not symmetric: when the comparison
fails, as it does for an operand that is not a number, they return their second argument.
-/

namespace SceneShading

/-- The arithmetic that bounding volumes are computed with. -/
class Scalar (α : Type) extends Add α, Sub α, Mul α, Div α where
  /-- The neutral element of addition. -/
  zero : α
  /-- The neutral element of multiplication. -/
  one : α
  /-- One half. -/
  half : α
  /-- One quarter. -/
  quarter : α
  /-- The square root. -/
  sqrt : α → α
  /-- Strictly below; false when an operand is not a number. -/
  lt : α → α → Bool
  /-- Below or equal; false when an operand is not a number. -/
  le : α → α → Bool
  /-- Neither infinite nor undefined. -/
  isFinite : α → Bool

namespace Scalar

variable {α : Type} [Scalar α]

/-- The first argument if it is strictly below the second, else the second. -/
def least (a b : α) : α := if lt a b then a else b

/-- The first argument if it is strictly above the second, else the second. -/
def greatest (a b : α) : α := if lt b a then a else b

end Scalar

end SceneShading
