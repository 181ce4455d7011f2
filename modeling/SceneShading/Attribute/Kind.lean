/-!
# Kinds of pipeline attributes

A pipeline attribute belongs to one of twelve kinds. An attribute is found by its kind and a member
number, which tells lights and shadow receivers apart; texture attributes are found by the texture
unit they are bound to and their kind.
-/

namespace SceneShading

/-- The kinds of pipeline attributes, in their order. -/
inductive Kind where
  | cullFace
  | blendFunc
  | depth
  | material
  | light
  | skinning
  | morph
  | shadowReceive
  | shadowCast
  | billboard
  | texture
  | shadowTexture
deriving Repr, DecidableEq, Inhabited

namespace Kind

/-- Every kind, in order. -/
def all : List Kind :=
  [cullFace, blendFunc, depth, material, light, skinning, morph, shadowReceive, shadowCast,
   billboard, texture, shadowTexture]

/-- The place of a kind in the order. -/
def rank : Kind → Nat
  | cullFace => 0
  | blendFunc => 1
  | depth => 2
  | material => 3
  | light => 4
  | skinning => 5
  | morph => 6
  | shadowReceive => 7
  | shadowCast => 8
  | billboard => 9
  | texture => 10
  | shadowTexture => 11

theorem rank_injective {a b : Kind} (h : a.rank = b.rank) : a = b := by
  cases a <;> cases b <;> first | rfl | (simp [rank] at h)

/-- The name of a kind. -/
def name : Kind → String
  | cullFace => "CullFace"
  | blendFunc => "BlendFunc"
  | depth => "Depth"
  | material => "Material"
  | light => "Light"
  | skinning => "Skinning"
  | morph => "Morph"
  | shadowReceive => "ShadowReceive"
  | shadowCast => "ShadowCast"
  | billboard => "Billboard"
  | texture => "Texture"
  | shadowTexture => "ShadowTexture"

/-- The kind of a name. -/
def ofName? (s : String) : Option Kind := all.find? (·.name == s)

/-- The kinds that are bound per texture unit. -/
def isTextureKind : Kind → Bool
  | texture | shadowTexture => true
  | _ => false

/-- The kinds that the depth pass of a shadow map is generated from. -/
def castsShadow : Kind → Bool
  | shadowCast | skinning | morph | billboard => true
  | _ => false

/-- The kinds that take part in program generation unless the settings say otherwise. -/
def shaderDefaults : List Kind :=
  [shadowReceive, shadowCast, skinning, morph, shadowTexture, texture, light, material, billboard]

end Kind

/-- What an attribute is found by outside the texture units. -/
structure AttributeKey where
  kind : Kind
  member : Nat
deriving Repr, DecidableEq, Inhabited

namespace AttributeKey

/-- The order of keys: by kind, then by member. -/
def lt (a b : AttributeKey) : Bool :=
  decide (a.kind.rank < b.kind.rank) || a.kind.rank == b.kind.rank && decide (a.member < b.member)

end AttributeKey

end SceneShading
