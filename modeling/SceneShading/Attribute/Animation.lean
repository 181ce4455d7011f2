import SceneShading.Text.Order
import SceneShading.Uniform

/-!
# Skinning and morphing

A skinned surface reads bone matrices from an array whose length is part of the program. A skin
that does not say how long its array is takes the length from limits that all skins of a renderer
share: the longest palette seen so far, up to a cap. A morphed surface blends up to four targets.
-/

namespace SceneShading

/-- The longest bone palette seen so far, and its cap. -/
structure BoneLimits where
  longest : Nat := 1
  cap : Option Nat := none
deriving Repr, DecidableEq, Inhabited

namespace BoneLimits

/-- The limits before any palette is seen. -/
def ofCap (cap : Option Nat) : BoneLimits := { cap }

/-- The limits after a palette is seen. -/
def observe (limits : BoneLimits) (length : Nat) : BoneLimits :=
  let grown := max limits.longest length
  { limits with longest := limits.cap.elim grown (min grown) }

end BoneLimits

/-- The bones of a skinned surface. -/
structure Skinning where
  enabled : Bool := false
  size : Option Nat := none
  palette : List (Vec4 Binary32) := []
deriving Repr, BEq, Inhabited

namespace Skinning

/-- The length of the bone array in the program. -/
def uniformSize (s : Skinning) (limits : BoneLimits) : Nat := s.size.getD limits.longest

/-- The skin with another palette, and the limits that have seen it. A skin that says how long its
array is leaves the limits alone. -/
def withPalette (s : Skinning) (palette : List (Vec4 Binary32)) (limits : BoneLimits) :
    Skinning × BoneLimits :=
  ({ s with palette }, if s.size.isNone then limits.observe palette.length else limits)

/-- The bone array. -/
def uniformValues (s : Skinning) : List (String × UniformValue) :=
  if s.enabled then [("uBones", .vec4Array s.palette)] else []

end Skinning

/-- The targets of a morphed surface: the attributes that have targets, and how many. -/
structure Morph where
  enabled : Bool := false
  targetCount : Nat := 0
  targetNames : List String := []
  weights : Vec4 Binary32 := Vec4.zero
deriving Repr, BEq, Inhabited

namespace Morph

/-- The surface with targets for the named attributes, which are kept in order. -/
def withTargetNames (m : Morph) (names : List String) : Morph :=
  { m with targetNames := Text.sort names }

/-- The attribute has targets. -/
def hasTarget (m : Morph) (name : String) : Bool := m.targetNames.contains name

/-- The weights of the targets. -/
def uniformValues (m : Morph) : List (String × UniformValue) :=
  if m.enabled then [("uTargetWeights", .vec4 m.weights)] else []

end Morph

end SceneShading
