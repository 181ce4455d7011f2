import Mathlib.Tactic
import SceneShading.Proofs.Graph.Kinds
import SceneShading.Proofs.Program.Geometry

/-!
# What is in the graphs of roles

The graphs that are built for roles hold no uniform that comes out of nowhere (`Roles.Reads`): it
belongs to an attribute that plays a role and is uploaded with it, or it is left to the caller, or it is
the switch of the vertex colors. Nor do they filter shadows in a way that was not asked for, or define
anything but the name of the program (`Roles.Allows`). Each builder is judged by the rules of `Adds`.
-/

namespace SceneShading

/-! ## Uniforms of roles -/

/-- What is known of a uniform without its value: its name, the type of the value, and whether it is an
array. -/
structure UniformSignature where
  name : String
  type : String
  isArray : Bool
deriving DecidableEq

/-- The signature of a named value. -/
def UniformValue.signature (name : String) : UniformValue → UniformSignature
  | vec4Array values => ⟨name, (vec4Array values).type.glsl, true⟩
  | value => ⟨name, value.type.glsl, false⟩

/-- The signature of the values that a variable takes. A sampler takes the number of a texture unit. -/
def Variable.signature (v : Variable) : UniformSignature :=
  match v.cls with
  | .sampler => ⟨v.name, "int", false⟩
  | _ => ⟨v.name, v.type, v.size.isSome⟩

/-- The signatures of the uniforms of an attribute in a texture unit. -/
def Attribute.signatures (unit : Nat) (a : Attribute) : List UniformSignature :=
  (a.uniformValues unit).map fun u => u.2.signature u.1

/-- The uniforms that the caller supplies: the matrices, and the parameters of a shadow map. -/
def callerUniforms : List String :=
  ["uProjectionMatrix", "uModelViewMatrix", "uModelMatrix", "uModelViewNormalMatrix", "exponent0",
    "exponent1", "uShadowDepthRange"]

/-- The switch of the vertex colors, which every state has. -/
def colorSwitch : String := "uArrayColorEnabled"

namespace Roles

/-- An attribute that plays a role, with the texture unit that it is in. What is in no unit is counted
with the first one. -/
inductive Plays (roles : Roles) : Nat → Attribute → Prop where
  | material {m : Material} : roles.material = some m → Plays roles 0 (.material m)
  | light {l : Light} : l ∈ roles.lights → Plays roles 0 (.light l)
  | receiver {r : ShadowReceive} : r ∈ roles.receivers → Plays roles 0 (.shadowReceive r)
  | skinning {s : Skinning} : roles.skinning = some s → Plays roles 0 (.skinning s)
  | morph {m : Morph} : roles.morph = some m → Plays roles 0 (.morph m)
  | texture {e : Nat × Texture} : e ∈ roles.textures → Plays roles e.1 (.texture e.2)
  | shadowMap {e : Nat × ShadowTexture} : e ∈ roles.shadowMaps → Plays roles e.1 (.shadowTexture e.2)

/-- A uniform that programs of the roles may read: one that the caller supplies, the switch of the
vertex colors, or one that an attribute has if it is enabled. -/
def Reads (roles : Roles) (v : Variable) : Prop :=
  v.name ∈ callerUniforms ∨ v.name = colorSwitch ∨
    ∃ unit a, roles.Plays unit a ∧ (a.isEnabled = true → v.signature ∈ a.signatures unit)

/-- What nodes of graphs of the roles may be: uniforms and samplers that the roles read, filters of
receivers that shadow a light, filters of surfaces that are drawn into a shadow map, and the name of
the program. Nothing is said of other nodes. -/
def Allows (roles : Roles) : NodeKind → Prop
  | .var v =>
    match v.cls with
    | .uniform | .sampler => roles.Reads v
    | _ => True
  | .shadowReceive config => roles.cast = none ∧
    ∃ light ∈ roles.lights, ∃ shadow ∈ roles.shadowOf light, shadow.1.config = config
  | .shadowCast _ => roles.cast.isSome
  | .define name value => name = "SHADER_NAME" ∧ value = roles.programName
  | _ => True

variable {roles : Roles} {type name : String} {unit : Nat} {a : Attribute}

/-- A uniform that the caller supplies. -/
lemma allows_caller (h : name ∈ callerUniforms) :
    roles.Allows (.var { cls := .uniform, type, name }) :=
  .inl h

/-- The switch of the vertex colors. -/
lemma allows_colorSwitch : roles.Allows (.var { cls := .uniform, type, name := "uArrayColorEnabled" }) :=
  .inr (.inl rfl)

/-- A uniform of an attribute. -/
lemma allows_uniform {size : Option Nat} (ha : roles.Plays unit a)
    (h : a.isEnabled = true → ⟨name, type, size.isSome⟩ ∈ a.signatures unit) :
    roles.Allows (.var { cls := .uniform, type, name, size }) :=
  .inr (.inr ⟨unit, a, ha, h⟩)

/-- A sampler of an attribute. -/
lemma allows_sampler (ha : roles.Plays unit a)
    (h : ⟨name, "int", false⟩ ∈ a.signatures unit) :
    roles.Allows (.var { cls := .sampler, type, name }) :=
  .inr (.inr ⟨unit, a, ha, fun _ => h⟩)

end Roles

/-! ## Values of attributes -/

/-- The fields of a light of a type that have uniforms, with the types of these. -/
def LightType.fields (type : LightType) : List (String × String) :=
  [("position", "vec4")] ++
    (if type = .spot then [("spotCutOff", "float"), ("spotBlend", "float"), ("direction", "vec3")]
      else []) ++
    (if type = .hemi then [("ground", "vec4")] else []) ++
    [("attenuation", "vec4"), ("diffuse", "vec4"), ("specular", "vec4"), ("ambient", "vec4"),
      ("matrix", "mat4"), ("invMatrix", "mat4")]

/-- The signatures of a light that is switched on. -/
lemma Light.signatures_eq {l : Light} (henabled : l.enabled = true) (unit : Nat) :
    (Attribute.light l).signatures unit =
      l.type.fields.map fun f => ⟨uniformName l.number f.1, f.2, false⟩ := by
  rw [Attribute.signatures, Attribute.uniformValues, uniformValues, henabled, LightType.fields]
  cases l.type <;> rfl

/-- The fields that the shading by a light reads have uniforms. -/
lemma LightType.uniformFields_subset : ∀ type ∈ all, ∀ field ∈ type.model.uniformFields,
    (field, Light.uniformType field) ∈ type.fields := by
  decide

/-- The fields that the shading by a light reads are among its uniforms. -/
lemma Roles.allows_light {roles : Roles} {l : Light} (hl : l ∈ roles.lights) {field : String}
    (hfield : field ∈ l.type.model.uniformFields) :
    roles.Allows (.var ⟨.uniform, Light.uniformType field, Light.uniformName l.number field,
      none, none⟩) := by
  refine allows_uniform (.light hl) fun henabled => ?_
  have htype : l.type ∈ LightType.all := by cases l.type <;> decide
  rw [Light.signatures_eq henabled]
  exact List.mem_map.2 ⟨_, LightType.uniformFields_subset l.type htype field hfield, rfl⟩

/-- The fields of a receiver are among its uniforms. -/
lemma Roles.allows_receiver {roles : Roles} {r : ShadowReceive} (hr : r ∈ roles.receivers)
    {field : String} (hfield : field ∈ FragmentGraph.receiverFields) :
    roles.Allows (.var ⟨.uniform, "float", ShadowReceive.uniformName r.light field,
      none, none⟩) := by
  refine allows_uniform (.receiver hr) fun henabled => ?_
  have hsignatures : (Attribute.shadowReceive r).signatures 0 = FragmentGraph.receiverFields.map
      fun field => ⟨ShadowReceive.uniformName r.light field, "float", false⟩ := by
    change r.enabled = true at henabled
    rw [Attribute.signatures, Attribute.uniformValues, ShadowReceive.uniformValues, henabled]
    rfl
  rw [hsignatures]
  exact List.mem_map_of_mem hfield

/-- The signatures of a shadow map. -/
lemma Attribute.signatures_shadowTexture (unit : Nat) (t : ShadowTexture) :
    (Attribute.shadowTexture t).signatures unit = FragmentGraph.shadowMapFields.map (fun field =>
      ⟨ShadowTexture.uniformName unit field.1, field.2.2, false⟩) ++
        [⟨samplerName unit, "int", false⟩] := rfl

/-- The fields of a shadow map are among its uniforms. -/
lemma Roles.allows_shadowMap {roles : Roles} {e : Nat × ShadowTexture} (he : e ∈ roles.shadowMaps)
    {field : String × String × String} (hfield : field ∈ FragmentGraph.shadowMapFields) :
    roles.Allows (.var ⟨.uniform, field.2.2, ShadowTexture.uniformName e.1 field.1,
      none, none⟩) := by
  refine allows_uniform (.shadowMap he) fun _ => ?_
  rw [Attribute.signatures_shadowTexture]
  exact List.mem_append_left _ (List.mem_map.2 ⟨field, hfield, rfl⟩)

/-! ## Fragment graphs -/

open Builder

variable {roles : Roles}

namespace FragmentGraph

lemma adds_materialUniforms {m : Material} (hm : roles.material = some m) :
    Adds roles.Allows materialUniforms := by
  have hsignatures : (Attribute.material m).signatures 0 =
      [⟨"uMaterialAmbient", "vec4", false⟩, ⟨"uMaterialDiffuse", "vec4", false⟩,
        ⟨"uMaterialSpecular", "vec4", false⟩, ⟨"uMaterialEmission", "vec4", false⟩,
        ⟨"uMaterialShininess", "float", false⟩] := rfl
  have huniform : ∀ {name type : String}, ⟨name, type, false⟩ ∈ (Attribute.material m).signatures 0 →
      Adds roles.Allows (uniform type name) :=
    fun h => .uniform (Roles.allows_uniform (.material hm) fun _ => h)
  rw [hsignatures] at huniform
  rw [materialUniforms]
  refine .bind (huniform (by decide)) fun ambient => ?_
  refine .bind (huniform (by decide)) fun diffuse => ?_
  refine .bind (huniform (by decide)) fun specular => ?_
  refine .bind (huniform (by decide)) fun emission => ?_
  exact .bind (huniform (by decide)) fun shininess => .pure _

lemma adds_plain : Adds roles.Allows plain := by
  rw [plain]
  refine .bind (.constant trivial) fun magenta => ?_
  refine .bind (.node trivial) fun color => ?_
  exact .bind (.operation trivial) fun _ => .pure _

lemma adds_vertexColor (diffuse : NodeId) : Adds roles.Allows (vertexColor diffuse) := by
  rw [vertexColor]
  refine .bind (.varying trivial) fun vertexColor => ?_
  refine .bind (.uniform Roles.allows_colorSwitch) fun enabled => ?_
  refine .bind (.temporary fun _ => trivial) fun color => ?_
  refine .bind (.operation trivial) fun id => ?_
  exact .bind (.comment id _) fun _ => .pure _

/-! ### Geometry of the fragment -/

lemma adds_frontNormal : Adds roles.Allows frontNormal := by
  rw [frontNormal]
  refine .bind (.localNamed fun _ => trivial) fun front => ?_
  refine .bind (.varying trivial) fun viewNormal => ?_
  exact .bind (.operation trivial) fun _ => .pure _

lemma adds_normal : Adds roles.Allows normal := by
  rw [normal]
  refine .orElse ?_
  refine .bind (.localNamed fun _ => trivial) fun out => ?_
  refine .bind adds_frontNormal fun front => ?_
  exact .bind (.operation trivial) fun _ => .pure _

lemma adds_eyeVector : Adds roles.Allows eyeVector := by
  rw [eyeVector]
  refine .orElse ?_
  refine .bind (.temporary fun _ => trivial) fun normalized => ?_
  refine .bind (.temporary fun _ => trivial) fun eye => ?_
  refine .bind (.varying trivial) fun viewVertex => ?_
  refine .bind (.operation trivial) fun _ => ?_
  refine .bind (.operation trivial) fun _ => ?_
  refine .bind (.localNamed fun _ => trivial) fun out => ?_
  refine .bind (.localValued fun _ => trivial) fun minusOne => ?_
  exact .bind (.operation trivial) fun _ => .pure _

/-! ### Shadows -/

lemma adds_receiverPins {r : ShadowReceive} (hr : r ∈ roles.receivers) {fields : List String}
    (hfields : fields ⊆ receiverFields) : Adds roles.Allows (receiverPins r.light fields) := by
  induction fields with
  | nil => exact .pure _
  | cons field fields ih =>
    rw [List.cons_subset] at hfields
    rw [receiverPins]
    refine .bind (.uniform (Roles.allows_receiver hr hfields.1)) fun id => ?_
    exact .bind (ih hfields.2) fun pins => .pure _

lemma adds_shadowMapUniforms {e : Nat × ShadowTexture} (he : e ∈ roles.shadowMaps)
    {fields : List (String × String × String)} (hfields : fields ⊆ shadowMapFields) :
    Adds roles.Allows (shadowMapUniforms e.1 fields) := by
  induction fields with
  | nil => exact .pure _
  | cons field fields ih =>
    rw [List.cons_subset] at hfields
    rw [shadowMapUniforms]
    refine .bind (.uniform (Roles.allows_shadowMap he hfields.1)) fun id => ?_
    exact .bind (ih hfields.2) fun pins => .pure _

lemma adds_shadowMapPins {e : Nat × ShadowTexture} (he : e ∈ roles.shadowMaps) :
    Adds roles.Allows (shadowMapPins e.1) := by
  have hsampler : ⟨samplerName e.1, "int", false⟩ ∈ (Attribute.shadowTexture e.2).signatures e.1 := by
    rw [Attribute.signatures_shadowTexture]
    exact List.mem_append_right _ List.mem_cons_self
  rw [shadowMapPins]
  refine .bind (.sampler (Roles.allows_sampler (.shadowMap he) hsampler)) fun map => ?_
  exact .bind (adds_shadowMapUniforms he (List.Subset.refl _)) fun pins => .pure _

lemma adds_addShadowMaps {units : List Nat} (hunits : units ⊆ roles.shadowMaps.map (·.1))
    (pins : Pins) : Adds roles.Allows (addShadowMaps pins units) := by
  induction units generalizing pins with
  | nil => exact .pure _
  | cons unit units ih =>
    rw [List.cons_subset] at hunits
    obtain ⟨e, he, rfl⟩ := List.mem_map.1 hunits.1
    rw [addShadowMaps]
    exact .bind (adds_shadowMapPins he) fun others => ih hunits.2 _

/-- What shadows a light is a receiver that is there, and shadow maps in units. -/
lemma mem_of_mem_shadowOf {l : Light} {shadow : ShadowReceive × List Nat}
    (h : shadow ∈ roles.shadowOf l) :
    shadow.1 ∈ roles.receivers ∧ shadow.2 ⊆ roles.shadowMaps.map (·.1) := by
  obtain ⟨receiver, hreceiver, hunits⟩ := Option.bind_eq_some_iff.1 h
  simp only at hunits
  split at hunits
  · cases hunits
  · cases hunits
    exact ⟨List.mem_of_find?_eq_some hreceiver, List.map_subset _ (List.filter_subset_self _)⟩

lemma adds_shadowed (hcast : roles.cast = none) {l : Light} (hl : l ∈ roles.lights) {shadow : ShadowReceive × List Nat}
    (hshadow : shadow ∈ roles.shadowOf l) (lightPins : Pins) (lit : NodeId) :
    Adds roles.Allows (shadowed shadow.1 shadow.2 lightPins lit) := by
  obtain ⟨hreceiver, hunits⟩ := mem_of_mem_shadowOf hshadow
  rw [shadowed]
  refine .bind (.varying trivial) fun vertexWorld => ?_
  refine .bind (.temporary fun _ => trivial) fun shadowFactor => ?_
  refine .bind (adds_receiverPins hreceiver (List.Subset.refl _)) fun ofReceiver => ?_
  refine .bind (adds_addShadowMaps hunits _) fun pins => ?_
  refine .bind (.operation ⟨hcast, l, hl, shadow, hshadow, rfl⟩) fun _ => ?_
  refine .bind (.localNamed fun _ => trivial) fun out => ?_
  exact .bind (.operation trivial) fun _ => .pure _

/-! ### Lights -/

lemma adds_lightPins {l : Light} (hl : l ∈ roles.lights) {fields : List String}
    (hfields : fields ⊆ l.type.model.uniformFields) :
    Adds roles.Allows (lightPins l.number fields) := by
  induction fields with
  | nil => exact .pure _
  | cons field fields ih =>
    rw [List.cons_subset] at hfields
    rw [lightPins]
    refine .bind (.uniform (Roles.allows_light hl hfields.1)) fun id => ?_
    exact .bind (ih hfields.2) fun pins => .pure _

lemma adds_lightEyePos (type : LightType) (index : Nat) :
    Adds roles.Allows (lightEyePos type index) := by
  rw [lightEyePos]
  split
  · exact .bind (.localNamed fun _ => trivial) fun id => .pure _
  · exact .pure _

/-- Every shading uses the ambient color of its light. -/
lemma ambient_mem_uniformFields : ∀ model : LightModel, "ambient" ∈ model.uniformFields := by
  rintro (_ | _ | _ | _) <;> decide

lemma adds_lightTerms (hcast : roles.cast = none) (material : MaterialUniforms) (diffuse : NodeId)
    (index : Nat) {l : Light} (hl : l ∈ roles.lights) :
    Adds roles.Allows (lightTerms roles material diffuse index l) := by
  rw [lightTerms]
  refine .bind (.temporary fun _ => trivial) fun lit => ?_
  refine .bind (adds_lightPins hl (List.Subset.refl _)) fun ofLight => ?_
  refine .bind (.localNamed fun _ => trivial) fun lighted => ?_
  refine .bind (adds_lightEyePos _ _) fun eyePos => ?_
  refine .bind (.localNamed fun _ => trivial) fun eyeDir => ?_
  refine .bind (.localNamed fun _ => trivial) fun ndl => ?_
  refine .bind adds_normal fun normal => ?_
  refine .bind adds_eyeVector fun eyeVector => ?_
  extract_lets _ pins outputs ambientTerm
  have hterm : ∀ term, Adds roles.Allows (ambientTerm term) := by
    intro term
    refine .bind (.localNamed fun _ => trivial) fun ambient => ?_
    have hambient := Roles.allows_light hl (ambient_mem_uniformFields l.type.model)
    refine .bind (.uniform hambient) fun lightAmbient => ?_
    exact .bind (.operation trivial) fun _ => .pure _
  refine .bind (.operation trivial) fun _ => ?_
  split
  next receiver units hshadow => exact .bind (adds_shadowed hcast hl hshadow pins lit) hterm
  next => exact hterm lit

lemma adds_allLightTerms (hcast : roles.cast = none) (material : MaterialUniforms)
    (diffuse : NodeId) (index : Nat) {lights : List Light} (hlights : lights ⊆ roles.lights) :
    Adds roles.Allows (allLightTerms roles material diffuse index lights) := by
  induction lights generalizing index with
  | nil => exact .pure _
  | cons l lights ih =>
    rw [List.cons_subset] at hlights
    rw [allLightTerms]
    refine .bind (adds_lightTerms hcast material diffuse index hlights.1) fun terms => ?_
    exact .bind (ih _ hlights.2) fun others => .pure _

lemma adds_lighting (hcast : roles.cast = none) (material : MaterialUniforms) (diffuse : NodeId) :
    Adds roles.Allows (lighting roles material diffuse) := by
  rw [lighting]
  split
  · exact .pure _
  · refine .bind (.temporary fun _ => trivial) fun output => ?_
    refine .bind (adds_allLightTerms hcast material diffuse 0 (List.Subset.refl _)) fun terms => ?_
    exact .bind (.operation trivial) fun _ => .pure _

/-! ### Textures and alpha -/

lemma adds_texels {textures : List (Nat × Texture)} (htextures : textures ⊆ roles.textures) :
    Adds roles.Allows (texels textures) := by
  induction textures with
  | nil => exact .pure _
  | cons e textures ih =>
    rw [List.cons_subset] at htextures
    rw [texels]
    refine .bind ?_ fun first => .bind (ih htextures.2) fun others => .pure _
    have hsampler : ⟨samplerName e.1, "int", false⟩ ∈ (Attribute.texture e.2).signatures e.1 :=
      List.mem_cons_self
    rw [texel]
    refine .bind (.sampler (Roles.allows_sampler (.texture htextures.1) hsampler)) fun sampler => ?_
    refine .bind (.varying trivial) fun uv => ?_
    refine .bind (.temporary fun _ => trivial) fun color => ?_
    exact .bind (.operation trivial) fun _ => .pure _

lemma adds_texelProduct (texels : List NodeId) : Adds roles.Allows (texelProduct texels) := by
  unfold texelProduct
  split
  · exact .pure _
  · exact .pure _
  · refine .bind (.localNamed fun _ => trivial) fun product => ?_
    exact .bind (.operation trivial) fun _ => .pure _

lemma adds_alpha (isBillboard : Bool) (diffuse : NodeId) (texel : Option NodeId) :
    Adds roles.Allows (alpha isBillboard diffuse texel) := by
  rw [alpha]
  refine .bind (.temporary fun _ => trivial) fun alpha => ?_
  exact .bind (.operation trivial) fun _ => .pure _

/-! ### The graph -/

lemma adds_surface (hcast : roles.cast = none) {m : Material} (hm : roles.material = some m) :
    Adds roles.Allows (surface roles) := by
  rw [surface]
  refine .bind (adds_materialUniforms hm) fun material => ?_
  refine .bind (adds_vertexColor _) fun diffuse => ?_
  refine .bind (adds_lighting hcast material diffuse) fun lit => ?_
  refine .bind (.localValued fun _ => trivial) fun color => ?_
  refine .bind (.operation trivial) fun _ => ?_
  refine .bind (adds_texels (List.Subset.refl _)) fun texels => ?_
  refine .bind (adds_texelProduct _) fun product => ?_
  extract_lets output
  have houtput : Adds roles.Allows (output ()) := by
    refine .bind (adds_alpha _ _ _) fun alpha => ?_
    refine .bind (.temporary fun _ => trivial) fun premultiplied => ?_
    refine .bind (.operation trivial) fun _ => ?_
    refine .bind (.node trivial) fun fragColor => ?_
    exact .bind (.operation trivial) fun _ => .pure _
  split
  · exact .bind (.operation trivial) fun _ => houtput
  · exact houtput

lemma adds_build (hcast : roles.cast = none) : Adds roles.Allows (build roles) := by
  have hname : ∀ color, Adds roles.Allows (do
      let name ← programName roles.programName
      return [color, name]) := fun color => .bind (.node ⟨rfl, rfl⟩) fun name => .pure _
  rw [build]
  split
  next hsome =>
    obtain ⟨m, hm⟩ := Option.isSome_iff_exists.1 hsome
    exact .bind (adds_surface hcast hm) hname
  next => exact .bind adds_plain hname

end FragmentGraph

lemma DepthPass.adds_build {cast : ShadowCast} (hcast : roles.cast = some cast) :
    Adds roles.Allows (DepthPass.build cast roles.programName) := by
  have hcaller : ∀ {name type : String}, name ∈ callerUniforms →
      Adds roles.Allows (uniform type name) := fun h => .uniform (Roles.allows_caller h)
  rw [DepthPass.build]
  refine .bind (.node trivial) fun color => ?_
  refine .bind (hcaller (by decide)) fun exponent0 => ?_
  refine .bind (hcaller (by decide)) fun exponent1 => ?_
  refine .bind (hcaller (by decide)) fun depthRange => ?_
  refine .bind (.varying trivial) fun eye => ?_
  refine .bind (.operation (by rw [Roles.Allows, hcast]; rfl)) fun _ => ?_
  exact .bind (.node ⟨rfl, rfl⟩) fun name => .pure _

/-- The fragment graph of roles holds what they allow. -/
theorem Roles.only_fragmentGraph (roles : Roles) : roles.fragmentGraph.graph.Only roles.Allows := by
  have hbuild : Adds roles.Allows (roles.cast.elim (FragmentGraph.build roles) fun cast =>
      DepthPass.build cast roles.programName) := by
    cases hcast : roles.cast with
    | none => exact FragmentGraph.adds_build hcast
    | some cast => exact DepthPass.adds_build hcast
  exact hbuild _ (Graph.only_ofStage _)

/-! ## Vertex graphs -/

namespace VertexGraph

lemma adds_targetPins (input : String) (indices : List Nat) :
    Adds roles.Allows (targetPins input indices) := by
  induction indices with
  | nil => exact .pure _
  | cons i indices ih =>
    rw [targetPins]
    refine .bind (.vertexAttribute trivial) fun id => ?_
    exact .bind ih fun pins => .pure _

/-- Where an attribute has targets, there is a morph. -/
lemma exists_morph_of_hasTargets {input : String} (h : hasTargets roles input = true) :
    ∃ m, roles.morph = some m := by
  unfold hasTargets at h
  cases hm : roles.morph with
  | none =>
    rw [hm] at h
    cases h
  | some m => exact ⟨m, rfl⟩

lemma adds_morphed (c : Channel) : Adds roles.Allows (morphed roles c) := by
  rw [morphed]
  refine .orElse ?_
  refine .bind (.vertexAttribute trivial) fun input => ?_
  split
  next htargets =>
    obtain ⟨m, hm⟩ := exists_morph_of_hasTargets htargets
    have hweights : roles.Allows (.var { cls := .uniform, type := "vec4", name := "uTargetWeights" }) := by
      refine Roles.allows_uniform (.morph hm) fun henabled => ?_
      change m.enabled = true at henabled
      rw [Attribute.signatures, Attribute.uniformValues, Morph.uniformValues, henabled]
      exact List.mem_cons_self
    refine .bind (.localNamed fun _ => trivial) fun out => ?_
    refine .bind (.uniform hweights) fun weights => ?_
    refine .bind (adds_targetPins _ _) fun targets => ?_
    exact .bind (.operation trivial) fun _ => .pure _
  next => exact .pure _

lemma adds_boneMatrix {skin : Skinning} (hskin : roles.skinning = some skin) (paletteSize : Nat) :
    Adds roles.Allows (boneMatrix paletteSize) := by
  have hbones : roles.Allows (.var ⟨.uniform, "vec4", "uBones", none, some paletteSize⟩) := by
    refine Roles.allows_uniform (.skinning hskin) fun henabled => ?_
    change skin.enabled = true at henabled
    rw [Attribute.signatures, Attribute.uniformValues, Skinning.uniformValues, henabled]
    exact List.mem_cons_self
  rw [boneMatrix]
  refine .orElse ?_
  refine .bind (.localNamed fun _ => trivial) fun matrix => ?_
  refine .bind (.vertexAttribute trivial) fun weights => ?_
  refine .bind (.vertexAttribute trivial) fun bones => ?_
  refine .bind (.uniformArray hbones) fun palette => ?_
  exact .bind (.operation trivial) fun _ => .pure _

variable (limits : BoneLimits)

lemma adds_skinned (c : Channel) : Adds roles.Allows (skinned roles limits c) := by
  rw [skinned]
  refine .orElse ?_
  refine .bind (adds_morphed c) fun input => ?_
  split
  next => exact .pure _
  next skin hskin =>
    refine .bind (adds_boneMatrix hskin _) fun matrix => ?_
    refine .bind (.localNamed fun _ => trivial) fun out => ?_
    exact .bind (.operation trivial) fun _ => .pure _

lemma adds_localNormal : Adds roles.Allows (localNormal roles limits) := by
  rw [localNormal]
  refine .orElse ?_
  refine .bind (adds_skinned limits _) fun normal => ?_
  refine .bind (.vertexAttribute trivial) fun input => ?_
  split
  · exact .pure _
  · refine .bind (.localNamed fun _ => trivial) fun out => ?_
    exact .bind (.operation trivial) fun _ => .pure _

lemma adds_localTangent : Adds roles.Allows (localTangent roles limits) := by
  rw [localTangent]
  refine .orElse ?_
  refine .bind (.vertexAttribute trivial) fun input => ?_
  refine .bind (adds_skinned limits _) fun tangent => ?_
  split
  · exact .pure _
  · refine .bind (.temporary fun _ => trivial) fun normalized => ?_
    refine .bind (.operation trivial) fun _ => ?_
    refine .bind (.localNamed fun _ => trivial) fun out => ?_
    exact .bind (.operation trivial) fun _ => .pure _

omit limits in
lemma adds_transformed {name type matrix : String} {product : MatrixMult} {source : Builder NodeId}
    (hmatrix : matrix ∈ callerUniforms) (hsource : Adds roles.Allows source) :
    Adds roles.Allows (transformed name type product matrix source) := by
  rw [transformed]
  refine .orElse ?_
  refine .bind hsource fun vector => ?_
  refine .bind (.localNamed fun _ => trivial) fun out => ?_
  refine .bind (.uniform (Roles.allows_caller hmatrix)) fun matrix => ?_
  exact .bind (.operation trivial) fun _ => .pure _

lemma adds_viewVertex : Adds roles.Allows (viewVertex roles limits) :=
  adds_transformed (by decide) (adds_skinned limits _)

lemma adds_varyingSource {name : String} {source : Builder NodeId}
    (h : varyingSource roles limits name = some source) : Adds roles.Allows source := by
  unfold varyingSource at h
  split at h
  · cases h
    exact adds_transformed (by decide) (adds_skinned limits _)
  · cases h
    exact adds_transformed (by decide) (adds_localNormal limits)
  · cases h
    exact adds_transformed (by decide) (adds_localTangent limits)
  · cases h
    exact adds_viewVertex limits
  · cases h
    exact adds_transformed (by decide) (adds_localNormal limits)
  · cases h
    exact adds_transformed (by decide) (adds_localTangent limits)
  · cases h

lemma adds_position : Adds roles.Allows (position roles limits) := by
  rw [position]
  refine .bind (.node trivial) fun out => ?_
  split
  · refine .bind (.vertexAttribute trivial) fun vertex => ?_
    refine .bind (.uniform (Roles.allows_caller (by decide))) fun modelView => ?_
    refine .bind (.uniform (Roles.allows_caller (by decide))) fun projection => ?_
    exact .bind (.operation trivial) fun _ => .pure _
  · refine .bind (.uniform (Roles.allows_caller (by decide))) fun projection => ?_
    refine .bind (adds_viewVertex limits) fun vertex => ?_
    exact .bind (.operation trivial) fun _ => .pure _

lemma adds_writeVarying (name : String) (id : NodeId) :
    Adds roles.Allows (writeVarying roles limits name id) := by
  have hcolor : Adds roles.Allows (if name = "vVertexColor" then do
      let enabled ← uniform "float" "uArrayColorEnabled"
      let color ← vertexAttribute "vec4" "Color"
      let _ ← operation (.inlineCode vertexColorCode)
        (Pins.inputs [("venabled", enabled), ("acolor", color)]) (.named [("vcolor", id)])
      else pure ()) := by
    split
    · refine .bind (.uniform Roles.allows_colorSwitch) fun enabled => ?_
      refine .bind (.vertexAttribute trivial) fun color => ?_
      exact .bind (.operation trivial) fun _ => .pure _
    · exact .pure _
  rw [writeVarying]
  split
  next source hsource =>
    refine .bind (adds_varyingSource limits hsource) fun value => ?_
    exact .bind (.operation trivial) fun _ => hcolor
  next => exact hcolor

lemma adds_writeVaryings (varyings : List (String × NodeId)) :
    Adds roles.Allows (writeVaryings roles limits varyings) := by
  induction varyings with
  | nil => exact .pure _
  | cons e varyings ih => exact .bind (adds_writeVarying limits e.1 e.2) fun _ => ih

omit limits in
lemma adds_writeTexCoords (varyings : List (String × NodeId)) :
    Adds roles.Allows (writeTexCoords varyings) := by
  induction varyings with
  | nil => exact .pure _
  | cons e varyings ih =>
    refine .bind ?_ fun _ => ih
    rw [writeTexCoord]
    split
    · split
      · exact .fail _
      · refine .bind (.vertexAttribute trivial) fun coordinates => ?_
        exact .bind (.operation trivial) fun _ => .pure _
    · exact .pure _

lemma adds_build (varyings : List (String × NodeId)) :
    Adds roles.Allows (build roles limits varyings) := by
  rw [build]
  refine .bind (.node trivial) fun pointSize => ?_
  refine .bind (.constant trivial) fun one => ?_
  refine .bind (.operation trivial) fun _ => ?_
  refine .bind (adds_position limits) fun position => ?_
  refine .bind (adds_writeVaryings limits varyings) fun _ => ?_
  refine .bind (adds_writeTexCoords varyings) fun _ => ?_
  exact .bind (.node ⟨rfl, rfl⟩) fun name => .pure _

end VertexGraph

/-- The vertex graph of roles holds what they allow. -/
theorem Roles.only_vertexGraph (roles : Roles) (limits : BoneLimits) (fragment : Graph) :
    (roles.vertexGraph limits fragment).graph.Only roles.Allows := by
  have hvaryings : ∀ (es : List (String × NodeId)) (g : Graph), g.Only roles.Allows →
      (es.foldl (Graph.owe fragment) g).Only roles.Allows := by
    intro es
    induction es with
    | nil => exact fun g hg => hg
    | cons e es ih =>
      refine fun g hg => ih _ ?_
      let type := ((fragment.declared? e.2).map (·.type)).getD ""
      have hallowed : roles.Allows (.var { cls := .varying, type, name := e.1 }) := trivial
      exact (hg.insertVariable hallowed).of_kinds fun _ => rfl
  exact VertexGraph.adds_build limits _ _ (hvaryings fragment.varyings _ (Graph.only_ofStage _))

end SceneShading
