import SceneShading.Attribute.Animation
import SceneShading.Attribute.Fixed
import SceneShading.Attribute.Kind
import SceneShading.Attribute.Light
import SceneShading.Attribute.Shadow

/-!
# Pipeline attributes

The closed set of attributes that a state set can carry. Three views of an attribute matter beyond
its own parameters: its key, under which inheritance finds it; its *structure*, which is exactly
the part of it that changes generated code; and its fallback, the value of its kind that holds when
nobody sets one.
-/

namespace SceneShading

/-- A pipeline attribute. -/
inductive Attribute where
  | cullFace (value : CullFace)
  | blendFunc (value : BlendFunc)
  | depth (value : Depth)
  | material (value : Material)
  | light (value : Light)
  | skinning (value : Skinning)
  | morph (value : Morph)
  | shadowReceive (value : ShadowReceive)
  | shadowCast (value : ShadowCast)
  | billboard (value : Billboard)
  | texture (value : Texture)
  | shadowTexture (value : ShadowTexture)
deriving Repr, BEq, Inhabited

/-- The parameters of an attribute that change generated code. -/
inductive CodeParameters where
  | none
  | light (type : LightType) (enabled : Bool)
  | skinning (size : Nat) (enabled : Bool)
  | morph (names : List String) (count : Nat) (enabled : Bool)
  | shadow (config : ShadowConfig) (enabled : Bool)
  | billboard (enabled : Bool)
  | texture (target : TextureTarget)
  | shadowTexture (light : Nat)
deriving Repr, DecidableEq, Inhabited

/-- The structure of an attribute: its key and the parameters that change generated code. -/
structure AttributeStructure where
  key : AttributeKey
  parameters : CodeParameters
deriving Repr, DecidableEq, Inhabited

namespace Attribute

/-- The kind of an attribute. -/
def kind : Attribute → Kind
  | cullFace _ => .cullFace
  | blendFunc _ => .blendFunc
  | depth _ => .depth
  | material _ => .material
  | light _ => .light
  | skinning _ => .skinning
  | morph _ => .morph
  | shadowReceive _ => .shadowReceive
  | shadowCast _ => .shadowCast
  | billboard _ => .billboard
  | texture _ => .texture
  | shadowTexture _ => .shadowTexture

/-- The number of the light for lights and shadow receivers, and zero otherwise. -/
def member : Attribute → Nat
  | light l => l.number
  | shadowReceive r => r.light
  | _ => 0

/-- The key of an attribute. -/
def key (a : Attribute) : AttributeKey := ⟨a.kind, a.member⟩

/-- The switch of an attribute; an attribute without a switch is on. -/
def isEnabled : Attribute → Bool
  | light l => l.enabled
  | skinning s => s.enabled
  | morph m => m.enabled
  | shadowReceive r => r.enabled
  | shadowCast c => c.enabled
  | billboard b => b.enabled
  | _ => true

/-- The parameters of an attribute that change generated code, under the bone limits. -/
def codeParameters (limits : BoneLimits) : Attribute → CodeParameters
  | light l => .light l.type l.enabled
  | skinning s => .skinning (s.uniformSize limits) s.enabled
  | morph m => .morph m.targetNames m.targetCount m.enabled
  | shadowReceive r => .shadow r.config r.enabled
  | shadowCast c => .shadow c.config c.enabled
  | billboard b => .billboard b.enabled
  | texture t => .texture t.target
  | shadowTexture t => .shadowTexture t.light
  | cullFace _ | blendFunc _ | depth _ | material _ => .none

/-- The structure of an attribute, under the bone limits. -/
def structureOf (limits : BoneLimits) (a : Attribute) : AttributeStructure :=
  ⟨a.key, a.codeParameters limits⟩

/-- The attribute of the same kind and member that holds when nobody sets one. Attributes with a
switch are switched off. -/
def fallback : Attribute → Attribute
  | cullFace _ => .cullFace {}
  | blendFunc _ => .blendFunc {}
  | depth _ => .depth {}
  | material _ => .material {}
  | light l => .light { number := l.number, enabled := false }
  | skinning _ => .skinning {}
  | morph _ => .morph {}
  | shadowReceive r => .shadowReceive { light := r.light, enabled := false }
  | shadowCast _ => .shadowCast {}
  | billboard _ => .billboard { enabled := false }
  | texture _ => .texture {}
  | shadowTexture t => .shadowTexture { light := t.light }

/-- The uniforms of an attribute; the unit matters to texture attributes only. -/
def uniformValues (unit : Nat) : Attribute → List (String × UniformValue)
  | material m => m.uniformValues
  | light l => l.uniformValues
  | skinning s => s.uniformValues
  | morph m => m.uniformValues
  | shadowReceive r => r.uniformValues
  | shadowTexture t => t.uniformValues unit
  | texture _ => Texture.uniformValues unit
  | cullFace _ | blendFunc _ | depth _ | billboard _ | shadowCast _ => []

theorem key_fallback (a : Attribute) : a.fallback.key = a.key := by cases a <;> rfl

theorem kind_fallback (a : Attribute) : a.fallback.kind = a.kind := by cases a <;> rfl

end Attribute

end SceneShading
