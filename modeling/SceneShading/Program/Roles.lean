import SceneShading.Attribute.Basic

/-!
# Roles of attributes

A program is generated from attributes by the roles they play. A role that only one attribute can
play goes to the last one that asks for it; lights, shadow receivers, textures and shadow maps are
kept in order, the last two with their texture units.
-/

namespace SceneShading

/-- The attributes of a program by role. -/
structure Roles where
  material : Option Material := none
  lights : List Light := []
  receivers : List ShadowReceive := []
  /-- The surface is drawn into a shadow map. -/
  cast : Option ShadowCast := none
  skinning : Option Skinning := none
  morph : Option Morph := none
  isBillboard : Bool := false
  textures : List (Nat × Texture) := []
  shadowMaps : List (Nat × ShadowTexture) := []
deriving Repr, Inhabited

namespace Roles

/-- The roles with one more attribute. -/
def add (r : Roles) : Attribute → Roles
  | .material m => { r with material := some m }
  | .light l => { r with lights := r.lights ++ [l] }
  | .shadowReceive s => { r with receivers := r.receivers ++ [s] }
  | .shadowCast c => if c.enabled then { r with cast := some c } else r
  | .skinning s => { r with skinning := some s }
  | .morph m => { r with morph := some m }
  | .billboard b => { r with isBillboard := b.enabled }
  | .cullFace _ | .blendFunc _ | .depth _ | .texture _ | .shadowTexture _ => r

/-- The texture of an attribute. -/
def texture? : Attribute → Option Texture
  | .texture t => some t
  | _ => none

/-- The shadow map of an attribute. -/
def shadowMap? : Attribute → Option ShadowTexture
  | .shadowTexture t => some t
  | _ => none

/-- What the attributes of texture units play, with the units. -/
def ofUnits {α : Type} (role? : Attribute → Option α) (units : List (List Attribute)) :
    List (Nat × α) :=
  units.zipIdx.flatMap fun u => (u.1.filterMap role?).map (u.2, ·)

/-- The roles of attributes and of the attributes of texture units. -/
def ofAttributes (attributes : List Attribute) (units : List (List Attribute)) : Roles :=
  { attributes.foldl add {} with
    textures := ofUnits texture? units
    shadowMaps := ofUnits shadowMap? units }

/-- The name of the program. -/
def programName (r : Roles) : String :=
  if r.cast.isSome then "ShadowCast"
  else if r.material.isSome then "MaterialProgram"
  else "NoMaterialProgram"

/-- The texture units with shadow maps of a light. -/
def shadowUnits (r : Roles) (number : Nat) : List Nat :=
  (r.shadowMaps.filter (·.2.light == number)).map (·.1)

/-- The first receiver of the shadows of a light, with the units of its shadow maps, if there are
any. -/
def shadowOf (r : Roles) (light : Light) : Option (ShadowReceive × List Nat) := do
  let receiver ← r.receivers.find? (·.light == light.number)
  let units := r.shadowUnits light.number
  if units.isEmpty then none else some (receiver, units)

end Roles

end SceneShading
