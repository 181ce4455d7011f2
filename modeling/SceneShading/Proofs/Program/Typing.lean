import Mathlib.Tactic
import SceneShading.Proofs.Graph.Typing
import SceneShading.Proofs.Program.Geometry
import SceneShading.Proofs.Program.Surface

/-!
# Generated graphs are well typed

The builders of fragment graphs and vertex graphs are judged in the order of their requests once more,
now by the types of what they wire (`Types`). Nearly all of these types are decided by names, in particular
where a surface is shaded: the lit color has three components if there are lights, and four if there are
none, and both can be combined into three.

The samplers are the exception. Two builders ask for the sampler of a texture unit: the one that reads
shadow maps, which comes first and always asks for a flat one, and the one that reads textures, which
asks for the sampler of the target of its texture. The first request decides (`Roles.samplerType`).
-/

namespace SceneShading

open Builder TypeFact

/-! ## Samplers of texture units -/

namespace Roles

/-- The texture units of the shadow maps that are read for a light. -/
def mapsOf (roles : Roles) (light : Light) : List Nat := (roles.shadowOf light).elim [] (·.2)

/-- The texture units of the shadow maps that are read. -/
def mapUnits (roles : Roles) : List Nat := roles.lights.flatMap roles.mapsOf

/-- The first texture of the unit is a cube map, and no shadow map of the unit is read. -/
def IsCube (roles : Roles) (unit : Nat) : Prop :=
  unit ∉ roles.mapUnits ∧ (roles.textures.lookup unit).map (·.target) = some .cubeMap

instance (roles : Roles) (unit : Nat) : Decidable (roles.IsCube unit) :=
  inferInstanceAs (Decidable (_ ∧ _))

/-- The type of the sampler of a texture unit. -/
def samplerType (roles : Roles) (unit : Nat) : String :=
  if roles.IsCube unit then "samplerCube" else "sampler2D"

variable {roles : Roles} {unit : Nat}

/-- Shadow maps are flat. -/
lemma samplerType_of_mem (h : unit ∈ roles.mapUnits) : roles.samplerType unit = "sampler2D" :=
  if_neg fun hcube => hcube.1 h

/-- The first texture of each unit has the type of its sampler, unless a shadow map of the unit is read. -/
lemma samplerType_of_lookup {texture : Texture} (h : roles.textures.lookup unit = some texture) :
    texture.target.samplerType = roles.samplerType unit ∨ unit ∈ roles.mapUnits := by
  by_cases hmap : unit ∈ roles.mapUnits
  · exact .inr hmap
  · left
    have hcube : roles.IsCube unit ↔ texture.target = .cubeMap := by
      rw [IsCube, h, Option.map_some, Option.some.injEq, and_iff_right hmap]
    rw [samplerType]
    cases htarget : texture.target <;> simp [hcube, htarget, TextureTarget.samplerType]

end Roles

variable {samplerType : Nat → String} {needs : List TypeFact}

/-- The types of the uniforms of a material. -/
def MaterialUniforms.typed (m : MaterialUniforms) : List TypeFact :=
  [.typed m.ambient "vec4", .typed m.diffuse "vec4", .typed m.specular "vec4",
    .typed m.emission "vec4", .typed m.shininess "float"]

namespace FragmentGraph

/-- The uniforms of a material are colors and a number. -/
lemma types_materialUniforms : Types samplerType needs materialUniforms fun m => m.typed := by
  rw [materialUniforms]
  refine .bind (.uniform (.of_mem (by simp [words]))) fun ambient => ?_
  refine .bind (.uniform (.of_mem (by simp [words]))) fun diffuse => ?_
  refine .bind (.uniform (.of_mem (by simp [words]))) fun specular => ?_
  refine .bind (.uniform (.of_mem (by simp [words]))) fun emission => ?_
  refine .bind (.uniform (.of_mem (by simp [words]))) fun shininess => ?_
  exact .pure (by simp [MaterialUniforms.typed])

/-- The surface without material. -/
lemma types_plain : Types samplerType needs plain fun _ => [] := by
  rw [plain]
  refine .bind (.constant (.of_mem (by simp [words]))) fun magenta => ?_
  refine .bind (.output .fragColor) fun color => ?_
  refine .bind (.combine "vec4" (.inr (.inr rfl)) (by simp [BuiltinOutput.glslType])
    (by simp [combinable])) fun _ => ?_
  exact .pure (List.nil_subset _)

/-- The diffuse color with the color of the vertices has an alpha. -/
lemma types_vertexColor (diffuse : NodeId) :
    Types samplerType needs (vertexColor diffuse) fun id => [.typed id "vec4"] := by
  rw [vertexColor]
  refine .bind (.varying Carried.vertexColor.hasType) fun vertexColor => ?_
  refine .bind (.uniform (.of_mem (by simp [words]))) fun enabled => .bind (.temporary (by decide)) fun color => ?_
  refine .bind (.writes "vec4" rfl rfl (by simp)) fun id => ?_
  exact .bind (.comment _ _) fun _ => .pure (by simp)

/-! ## Geometry of the fragment -/

lemma types_frontNormal : Types samplerType needs frontNormal fun id => [.typed id "vec3"] := by
  rw [frontNormal]
  refine .bind (.localNamed (.of_mem (by simp [words]))) fun front => ?_
  refine .bind (.varying Carried.viewNormal.hasType) fun viewNormal => ?_
  exact .bind (.writes "vec3" rfl rfl (by simp)) fun _ => .pure (by simp)

/-- The unit normal is a direction. -/
lemma types_normal : Types samplerType needs normal fun id => [.typed id "vec3"] := by
  rw [normal]
  refine .orElse (.of_mem (by simp [words])) ?_
  refine .bind (.localNamed (.of_mem (by simp [words]))) fun out => ?_
  refine .bind types_frontNormal fun front => ?_
  exact .bind (.writes "vec3" rfl rfl (by simp)) fun _ => .pure (by simp)

/-- The vector to the viewer is a direction. -/
lemma types_eyeVector : Types samplerType needs eyeVector fun id => [.typed id "vec3"] := by
  rw [eyeVector]
  refine .orElse (.of_mem (by simp [words])) ?_
  refine .bind (.temporary (by decide)) fun normalized => .bind (.temporary (by decide)) fun eye => ?_
  refine .bind (.varying Carried.viewVertex.hasType) fun viewVertex => ?_
  refine .bind (.combine "vec3" (.inr (.inr rfl)) (by simp) (by simp [combinable])) fun _ => ?_
  refine .bind (.writes "vec3" rfl rfl (by simp)) fun _ => ?_
  refine .bind (.localNamed (.of_mem (by simp [words]))) fun out => ?_
  refine .bind (.localValued (by decide)) fun minusOne => ?_
  refine .bind (.combine "vec3" (.inr (.inl rfl)) (by simp) (by simp [combinable])) fun _ => ?_
  exact .pure (by simp)

/-! ## Shadows -/

/-- Functions take the pins of a receiver. -/
lemma types_receiverPins (light : Nat) (fields : List String) (h : fields ⊆ receiverFields) :
    Types samplerType needs (receiverPins light fields) fun pins =>
      passesAll (pins.map (·.2)) := by
  induction fields generalizing needs with
  | nil =>
    rw [receiverPins]
    exact .pure (by simp)
  | cons field fields ih =>
    obtain ⟨hfield, hfields⟩ := List.cons_subset.1 h
    rw [receiverPins]
    refine .bind (.uniform (hasType_receiver light hfield)) fun id => ?_
    refine .bind (ih hfields) fun pins => ?_
    exact .passing [id] (by simp [dataTypes]) (.pure (by simp))

/-- Functions take the uniforms of a shadow map. -/
lemma types_shadowMapUniforms (unit : Nat) (fields : List (String × String × String))
    (h : fields ⊆ shadowMapFields) :
    Types samplerType needs (shadowMapUniforms unit fields) fun pins =>
      passesAll (pins.map (·.2)) := by
  have hdata : ∀ e ∈ shadowMapFields, e.2.2 ∈ dataTypes := by decide
  induction fields generalizing needs with
  | nil =>
    rw [shadowMapUniforms]
    exact .pure (by simp)
  | cons e fields ih =>
    obtain ⟨hfield, hfields⟩ := List.cons_subset.1 h
    rw [shadowMapUniforms]
    refine .bind (.uniform (hasType_shadowMap unit hfield)) fun id => ?_
    refine .bind (ih hfields) fun pins => ?_
    refine .passing [id] ?_ (.pure (by simp))
    exact List.forall_mem_singleton.2 (.inr (.inl ⟨e.2.2, hdata e hfield, by simp⟩))

/-- Functions take the pins of a shadow map, and its unit has a sampler. -/
lemma types_shadowMapPins {unit : Nat} (hunit : samplerType unit = "sampler2D") :
    Types samplerType needs (shadowMapPins unit) fun pins =>
      .bound unit :: passesAll (pins.map (·.2)) := by
  rw [shadowMapPins]
  refine .bind (.sampler (.inl hunit.symm)) fun map => ?_
  refine .bind (types_shadowMapUniforms unit shadowMapFields (List.Subset.refl _)) fun pins => ?_
  refine .passing [map] ?_ (.pure (by simp))
  exact List.forall_mem_singleton.2 (.inr (.inr ⟨unit, hunit, by simp⟩))

/-- Functions take the pins of shadow maps, and their units have samplers. -/
lemma types_addShadowMaps (units : List Nat) {pins : Pins}
    (hunits : ∀ unit ∈ units, samplerType unit = "sampler2D")
    (hpins : passesAll (pins.map (·.2)) ⊆ needs) :
    Types samplerType needs (addShadowMaps pins units) fun all =>
      units.map .bound ++ passesAll (all.map (·.2)) := by
  induction units generalizing pins needs with
  | nil =>
    rw [addShadowMaps]
    exact .pure hpins
  | cons unit units ih =>
    obtain ⟨hunit, hrest⟩ := List.forall_mem_cons.1 hunits
    rw [addShadowMaps]
    refine .bind (types_shadowMapPins hunit) fun others => ?_
    have hall : passesAll ((pins.setAll others).map (·.2)) ⊆
        .bound unit :: passesAll (others.map (·.2)) ++ needs := by
      refine List.Subset.trans (passesAll_subset (Pins.nodes_setAll pins others)) ?_
      rw [passesAll_append]
      grind
    have hbound : [TypeFact.bound unit] ⊆ .bound unit :: passesAll (others.map (·.2)) ++ needs := by
      simp
    exact (ih hrest hall).frame hbound

/-- The lit color in shadow is a color without alpha. -/
lemma types_shadowed (receiver : ShadowReceive) {units : List Nat}
    (hunits : ∀ unit ∈ units, samplerType unit = "sampler2D") {lightPins : Pins}
    (hpins : passesAll (lightPins.map (·.2)) ⊆ needs) {lit : NodeId}
    (hlit : .typed lit "vec3" ∈ needs) :
    Types samplerType needs (shadowed receiver units lightPins lit) fun id =>
      units.map .bound ++ [.typed id "vec3"] := by
  rw [shadowed]
  refine .bind (.varying Carried.modelVertex.hasType) fun vertexWorld => ?_
  refine .bind (.temporary (by decide)) fun shadow => ?_
  refine .bind (types_receiverPins _ _ (List.Subset.refl _)) fun ofReceiver => ?_
  refine .bind (types_addShadowMaps units hunits ?_) fun pins => ?_
  · refine List.Subset.trans (passesAll_subset (Pins.nodes_setAll lightPins ofReceiver)) ?_
    rw [passesAll_append]
    grind
  refine .passing [vertexWorld] (by simp [dataTypes]) ?_
  refine .bind (.receive "float" ?_ (by simp)) fun _ => ?_
  · refine List.Subset.trans (passesAll_subset (Pins.nodes_set pins "vertexWorld" vertexWorld)) ?_
    simp only [passesAll_cons, passesAll_nil]
    grind
  refine .bind (.localNamed (.of_mem (by simp [words]))) fun out => ?_
  refine .bind (.combine "vec3" (.inr (.inl rfl)) (by simp) (by simp [combinable, hlit])) fun _ => ?_
  exact .frame (.pure (by simp)) (by grind)

/-! ## Lights -/

/-- The uniforms of lights are data. -/
lemma uniformType_mem_dataTypes (field : String) : Light.uniformType field ∈ dataTypes := by
  unfold Light.uniformType
  split <;> decide

/-- Functions take the uniforms of a light. -/
lemma types_lightPins (number : Nat) {model : LightModel} (fields : List String)
    (h : fields ⊆ model.uniformFields) :
    Types samplerType needs (lightPins number fields) fun pins => passesAll (pins.map (·.2)) := by
  induction fields generalizing needs with
  | nil =>
    rw [lightPins]
    exact .pure (by simp)
  | cons field fields ih =>
    obtain ⟨hfield, hfields⟩ := List.cons_subset.1 h
    rw [lightPins]
    refine .bind (.uniform (hasType_light number hfield)) fun id => ?_
    refine .bind (ih hfields) fun pins => ?_
    refine .passing [id] ?_ (.pure (by simp))
    exact List.forall_mem_singleton.2 (.inr (.inl ⟨_, uniformType_mem_dataTypes field, by simp⟩))

/-- The place of a light relative to the viewer is a vector. -/
lemma types_lightEyePos (type : LightType) (index : Nat) :
    Types samplerType needs (lightEyePos type index) fun place =>
      typedAll place.toList "vec3" := by
  rw [lightEyePos]
  split
  · refine .bind (.localNamed (hasType_numbered (by simp [words]) index)) fun id => ?_
    exact .pure (by simp)
  · exact .pure (by simp)

/-- What a surface gets from a light are colors without alpha, and the shadow maps that are read for the
light have samplers. -/
lemma types_lightTerms (roles : Roles) {material : MaterialUniforms} {diffuse : NodeId}
    (index : Nat) (light : Light)
    (hunits : ∀ unit ∈ roles.mapsOf light, samplerType unit = "sampler2D")
    (hneeds : .typed diffuse "vec4" :: material.typed ⊆ needs) :
    Types samplerType needs (lightTerms roles material diffuse index light) fun ids =>
      (roles.mapsOf light).map .bound ++ typedAll ids "vec3" := by
  rw [lightTerms]
  refine .bind (.temporary (by decide)) fun lit => ?_
  refine .bind (types_lightPins light.number _ (List.Subset.refl _)) fun ofLight => ?_
  refine .bind (.localNamed (hasType_numbered (by simp [words]) index)) fun lighted => ?_
  refine .bind (types_lightEyePos _ _) fun place => ?_
  refine .bind (.localNamed (hasType_numbered (by simp [words]) index)) fun eyeDir => ?_
  refine .bind (.localNamed (hasType_numbered (by simp [words]) index)) fun ndl => ?_
  refine .bind types_normal fun normal => .bind types_eyeVector fun eyeVector => ?_
  extract_lets placed pins outputs ambientTerm
  have hterm : ∀ needs term, .typed term "vec3" ∈ needs → .typed material.ambient "vec4" ∈ needs →
      Types samplerType needs (ambientTerm term) fun ids => typedAll ids "vec3" := by
    intro needs term hterm hambient
    refine .bind (.localNamed (.of_mem (by simp [words]))) fun ambient => ?_
    refine .bind (.uniform (hasType_ambient light.number)) fun lightAmbient => ?_
    refine .bind (.combine "vec3" (.inr (.inl rfl)) (by simp) ?_) fun _ => .pure (by simp [hterm])
    simp [combinable, hambient]
  have houtputs : outputs.map (·.2) = [lit] ++ place.toList ++ [eyeDir, ndl, lighted] := by
    cases place <;> rfl
  refine .bind (.unchecked rfl rfl fun target htarget => ?_) fun _ => ?_
  · have hmem : target ∈ outputs.map (·.2) := htarget
    rw [houtputs, List.mem_append, List.mem_append, List.mem_singleton] at hmem
    rcases hmem with (rfl | hplace) | hfound
    · exact ⟨"vec3", by simp⟩
    · exact ⟨"vec3", by simp [hplace]⟩
    · simp only [List.mem_cons, List.not_mem_nil, or_false] at hfound
      rcases hfound with rfl | rfl | rfl
      · exact ⟨"vec3", by simp⟩
      · exact ⟨"float", by simp⟩
      · exact ⟨"bool", by simp⟩
  have hambient : .typed material.ambient "vec4" ∈ needs := hneeds (by simp [MaterialUniforms.typed])
  cases hshadow : roles.shadowOf light with
  | none =>
    have hmaps : roles.mapsOf light = [] := by rw [Roles.mapsOf, hshadow, Option.elim_none]
    rw [hmaps]
    exact hterm _ lit (by simp) (by simp [hambient])
  | some shadow =>
    obtain ⟨receiver, units⟩ := shadow
    have hmaps : roles.mapsOf light = units := by rw [Roles.mapsOf, hshadow, Option.elim_some]
    rw [hmaps] at hunits ⊢
    have hsurface : .typed diffuse "vec4" :: material.typed ⊆ needs := hneeds
    rw [MaterialUniforms.typed] at hsurface
    simp only [List.cons_subset, List.nil_subset, and_true] at hsurface
    refine .passing ([lighted, eyeDir, ndl, normal, eyeVector, diffuse] ++ material.nodes ++
      place.toList) ?_ ?_
    · rw [List.forall_mem_append, List.forall_mem_append]
      refine ⟨⟨by simp [dataTypes, hsurface], by simp [dataTypes, hsurface]⟩, fun id hid => .inr (.inl ?_)⟩
      exact ⟨"vec3", by decide, by simp [hid]⟩
    have hpins := passesAll_subset
      (nodes_shadingPins material diffuse ofLight place lighted eyeDir ndl normal eyeVector)
    rw [passesAll_append] at hpins
    refine .bind (types_shadowed receiver hunits (List.Subset.trans hpins ?_) (by simp)) fun term => ?_
    · exact List.append_subset.2
        ⟨List.subset_append_left _ _, List.subset_append_of_subset_right _ (by grind)⟩
    exact (hterm _ term (by simp) (by simp [hambient])).frame (by grind)

/-- What a surface gets from lights are colors without alpha, and the shadow maps that are read for them
have samplers. -/
lemma types_allLightTerms (roles : Roles) {material : MaterialUniforms} {diffuse : NodeId}
    (index : Nat) (lights : List Light)
    (hunits : ∀ unit ∈ lights.flatMap roles.mapsOf, samplerType unit = "sampler2D")
    (hneeds : .typed diffuse "vec4" :: material.typed ⊆ needs) :
    Types samplerType needs (allLightTerms roles material diffuse index lights) fun ids =>
      (lights.flatMap roles.mapsOf).map .bound ++ typedAll ids "vec3" := by
  induction lights generalizing index needs with
  | nil =>
    rw [allLightTerms]
    exact .pure (by simp)
  | cons light lights ih =>
    rw [List.flatMap_cons, List.forall_mem_append] at hunits
    rw [allLightTerms]
    refine .bind (types_lightTerms roles index light hunits.1 hneeds) fun terms => ?_
    refine .bind (ih (index + 1) hunits.2 (List.subset_append_of_subset_right _ hneeds))
      fun others => .pure ?_
    rw [List.flatMap_cons, List.map_append, typedAll_append]
    grind

/-- The lit color has an alpha only without lights. The shadow maps that are read have samplers. -/
lemma types_lighting (roles : Roles) {material : MaterialUniforms} {diffuse : NodeId}
    (hunits : ∀ unit ∈ roles.mapUnits, samplerType unit = "sampler2D")
    (hneeds : .typed diffuse "vec4" :: material.typed ⊆ needs) :
    Types samplerType needs (lighting roles material diffuse) fun id =>
      roles.mapUnits.map .bound ++ [.typed id (if roles.lights.isEmpty then "vec4" else "vec3")] := by
  rw [lighting]
  split
  next hempty =>
    have hunits : roles.mapUnits = [] := by
      rw [Roles.mapUnits, List.isEmpty_iff.1 hempty, List.flatMap_nil]
    rw [hunits]
    exact .pure (List.Subset.trans (by simp) hneeds)
  next =>
    refine .bind (.temporary (by decide)) fun output => ?_
    refine .bind (types_allLightTerms roles 0 roles.lights hunits ?_) fun terms => ?_
    · exact List.subset_append_of_subset_right _ hneeds
    refine .bind (.combine "vec3" (.inl rfl) (by simp) fun id hid => ?_) fun _ => ?_
    · exact ⟨"vec3", by decide, by simp [hid]⟩
    · exact .frame (.pure (by simp)) (by grind [Roles.mapUnits])

/-! ## Textures and alpha -/

/-- A texel is a color. -/
lemma types_texel {unit : Nat} {texture : Texture}
    (h : texture.target.samplerType = samplerType unit ∨ .bound unit ∈ needs) :
    Types samplerType needs (texel unit texture) fun id => [.bound unit, .typed id "vec4"] := by
  rw [texel]
  refine .bind (.sampler h) fun sampler => ?_
  refine .bind (.varying (Carried.texCoord unit).hasType) fun uv => .bind (.temporary (by decide)) fun color => ?_
  exact .bind (.texture "vec4" unit (by simp) (by simp) (by simp)) fun _ => .pure (by simp)

/-- Texels are colors, if the first texture of each unit has the type of its sampler, or the unit has a
sampler before. -/
lemma types_texels {textures : List (Nat × Texture)}
    (h : ∀ unit texture, textures.lookup unit = some texture →
      texture.target.samplerType = samplerType unit ∨ .bound unit ∈ needs) :
    Types samplerType needs (texels textures) fun ids => typedAll ids "vec4" := by
  induction textures generalizing needs with
  | nil =>
    rw [texels]
    exact .pure (by simp)
  | cons t textures ih =>
    obtain ⟨unit, texture⟩ := t
    rw [texels]
    refine .bind (types_texel (h unit texture List.lookup_cons_self)) fun first => ?_
    refine .bind (ih fun other texture' hlookup => ?_) fun others => .pure (by simp)
    by_cases hunit : other = unit
    · -- the first texture has asked for the sampler
      exact .inr (by simp [hunit])
    · have hfirst : List.lookup other ((unit, texture) :: textures) = some texture' := by
        rw [List.lookup_cons, beq_false_of_ne hunit]
        exact hlookup
      exact (h other texture' hfirst).imp_right fun hbound => by simp [hbound]

/-- The product of texels. -/
lemma types_texelProduct {ids : List NodeId} (hids : typedAll ids "vec4" ⊆ needs) :
    Types samplerType needs (texelProduct ids) fun _ => [] := by
  rw [texelProduct.eq_def]
  split
  · exact .pure (List.nil_subset _)
  · exact .pure (List.nil_subset _)
  · refine .bind (.localNamed (.of_mem (by simp [words]))) fun product => ?_
    refine .bind (.combine "vec3" (.inr (.inl rfl)) (by simp) fun id hid => ?_) fun _ => ?_
    · exact ⟨"vec4", by decide, List.mem_append_right _ (hids (mem_typedAll.2 ⟨hid, rfl⟩))⟩
    · exact .pure (List.nil_subset _)

/-- The alpha of a surface. -/
lemma types_alpha (isBillboard : Bool) (diffuse : NodeId) (texel : Option NodeId) :
    Types samplerType needs (alpha isBillboard diffuse texel) fun _ => [] := by
  rw [alpha]
  refine .bind (.temporary (by decide)) fun alpha => ?_
  exact .bind (.writes "float" rfl rfl (by simp)) fun _ => .pure (List.nil_subset _)

/-! ## The graph -/

/-- The surface with a material. -/
lemma types_surface (roles : Roles) :
    Types roles.samplerType needs (surface roles) fun _ => [] := by
  rw [surface]
  refine .bind types_materialUniforms fun material => ?_
  refine .bind (types_vertexColor material.diffuse) fun diffuse => ?_
  refine .bind (types_lighting roles (fun unit => Roles.samplerType_of_mem) (by simp)) fun lit => ?_
  refine .bind (.localValued (by decide)) fun color => ?_
  refine .bind (.combine "vec3" (.inl rfl) (by simp) ?_) fun _ => ?_
  · cases roles.lights.isEmpty <;> simp [combinable, MaterialUniforms.typed]
  refine .bind (types_texels fun unit texture hlookup => ?_) fun texels => ?_
  · exact (Roles.samplerType_of_lookup hlookup).imp_right fun hunit => by simp [hunit]
  refine .bind (types_texelProduct (List.subset_append_left _ _)) fun product => ?_
  extract_lets rest
  have hrest : ∀ needs, .typed color "vec3" ∈ needs →
      Types roles.samplerType needs (rest ()) fun _ => [] := by
    intro needs hcolor
    refine .bind (types_alpha roles.isBillboard _ _) fun alpha => .bind (.temporary (by decide)) fun premultiplied => ?_
    refine .bind (.writes "vec4" rfl rfl (by simp)) fun _ => ?_
    refine .bind (.output .fragColor) fun fragColor => ?_
    refine .bind (.writes "vec4" rfl rfl (by simp [BuiltinOutput.glslType])) fun _ => ?_
    exact .pure (List.nil_subset _)
  cases product with
  | none => exact hrest _ (by simp)
  | some texture =>
    exact .bind (.writes "vec3" rfl rfl (by simp)) fun _ => hrest _ (by simp)

/-- The graph of a surface. -/
lemma types_build (roles : Roles) : Types roles.samplerType needs (build roles) fun _ => [] := by
  rw [build]
  split
  · refine .bind (types_surface roles) fun color => ?_
    exact .bind .programName fun name => .pure (List.nil_subset _)
  · refine .bind types_plain fun color => ?_
    exact .bind .programName fun name => .pure (List.nil_subset _)

end FragmentGraph

/-- The graph of a depth pass. -/
lemma DepthPass.types_build (cast : ShadowCast) (name : String) :
    Types samplerType needs (DepthPass.build cast name) fun _ => [] := by
  have hexponent : ∀ name, letters name = "exponent".toList → HasType .uniform name "float" :=
    fun name hname => ⟨"exponent", by simp [words], hname⟩
  rw [DepthPass.build]
  refine .bind (.output .fragColor) fun color => ?_
  refine .bind (.uniform (hexponent _ (by decide))) fun exponent0 => ?_
  refine .bind (.uniform (hexponent _ (by decide))) fun exponent1 => ?_
  refine .bind (.uniform (.of_mem (by simp [words]))) fun depthRange => ?_
  refine .bind (.varying Carried.viewVertex.hasType) fun eye => ?_
  refine .bind (.writes "vec4" rfl rfl (by simp [BuiltinOutput.glslType])) fun _ => ?_
  exact .bind .programName fun name => .pure (List.nil_subset _)

/-- **The fragment graph of roles is well typed.** -/
theorem Roles.typed_fragmentGraph (roles : Roles) :
    roles.fragmentGraph.graph.Typed roles.samplerType := by
  have htypes : Types roles.samplerType [] (roles.cast.elim (FragmentGraph.build roles)
      fun cast => DepthPass.build cast roles.programName) fun _ => [] := by
    cases roles.cast with
    | none => exact FragmentGraph.types_build roles
    | some cast => exact DepthPass.types_build cast roles.programName
  exact (htypes _ (Graph.typed_ofStage .fragment) (List.forall_mem_nil _)).1

namespace VertexGraph

/-! ## Deformed geometry -/

/-- The targets of a channel. -/
lemma types_targetPins {c : Channel} (hc : c.Named) (indices : List Nat) :
    Types samplerType needs (targetPins c.input indices) fun _ => [] := by
  induction indices generalizing needs with
  | nil =>
    rw [targetPins]
    exact .pure (List.nil_subset _)
  | cons i indices ih =>
    rw [targetPins]
    refine .bind (.vertexAttribute (hc.target i)) fun id => .bind ih fun pins => ?_
    exact .pure (List.nil_subset _)

/-- A morphed channel. -/
lemma types_morphed (roles : Roles) {c : Channel} (hc : c.Named) :
    Types samplerType needs (morphed roles c) fun _ => [] := by
  rw [morphed]
  refine .orElseAny (.bind (.vertexAttribute hc.input) fun input => ?_)
  split
  · refine .bind (.localNamed hc.morphed.1) fun out => ?_
    refine .bind (.uniform (.of_mem (by simp [words]))) fun weights => ?_
    refine .bind (types_targetPins hc _) fun targets => ?_
    exact .bind (.writes "vec3" rfl rfl (by simp)) fun _ => .pure (List.nil_subset _)
  · exact .pure (List.nil_subset _)

/-- The matrix of the bones. -/
lemma types_boneMatrix (paletteSize : Nat) :
    Types samplerType needs (boneMatrix paletteSize) fun _ => [] := by
  rw [boneMatrix]
  refine .orElseAny (.bind (.localNamed (.of_mem (by simp [words]))) fun matrix => ?_)
  refine .bind (.vertexAttribute (.of_mem (by simp [words]))) fun weights => ?_
  refine .bind (.vertexAttribute (.of_mem (by simp [words]))) fun bones => ?_
  refine .bind (.uniformArray (.of_mem (by simp [words])) _) fun palette => ?_
  exact .bind (.writes "mat4" rfl rfl (by simp)) fun _ => .pure (List.nil_subset _)

/-- A skinned channel. -/
lemma types_skinned (roles : Roles) (limits : BoneLimits) {c : Channel} (hc : c.Named) :
    Types samplerType needs (skinned roles limits c) fun _ => [] := by
  rw [skinned]
  refine .orElseAny (.bind (types_morphed roles hc) fun input => ?_)
  cases roles.skinning with
  | none => exact .pure (List.nil_subset _)
  | some skin =>
    refine .bind (types_boneMatrix _) fun matrix => ?_
    refine .bind (.localNamed hc.skinned.1) fun out => ?_
    exact .bind (.writes "vec3" rfl rfl (by simp)) fun _ => .pure (List.nil_subset _)

/-- The deformed normal. -/
lemma types_localNormal (roles : Roles) (limits : BoneLimits) :
    Types samplerType needs (localNormal roles limits) fun _ => [] := by
  rw [localNormal]
  refine .orElseAny (.bind (types_skinned roles limits named_normalChannel) fun normal => ?_)
  refine .bind (.vertexAttribute named_normalChannel.input) fun input => ?_
  split
  · exact .pure (List.nil_subset _)
  · refine .bind (.localNamed (.of_mem (by simp [words]))) fun out => ?_
    exact .bind (.writes "vec3" rfl rfl (by simp)) fun _ => .pure (List.nil_subset _)

/-- A transformed vector has the type of its name, whatever has been transformed. -/
lemma types_transformed {name type matrix : String} (hname : (name, type) ∈ words .temporary)
    (hmatrix : (matrix, "mat4") ∈ words .uniform) {product : MatrixMult} {source : Builder NodeId}
    (hsource : Types samplerType needs source fun _ => []) :
    Types samplerType needs (transformed name type product matrix source) fun id =>
      [.typed id type] := by
  rw [transformed]
  refine .orElse (.of_mem hname) (.bind hsource fun vector => ?_)
  refine .bind (.localNamed (.of_mem hname)) fun out => ?_
  refine .bind (.uniform (.of_mem hmatrix)) fun matrix => ?_
  exact .bind (.writes type rfl rfl (by simp)) fun _ => .pure (by simp)

/-- The position in view space has four components. -/
lemma types_viewVertex (roles : Roles) (limits : BoneLimits) :
    Types samplerType needs (viewVertex roles limits) fun id => [.typed id "vec4"] := by
  rw [viewVertex]
  exact types_transformed (by simp [words]) (by simp [words])
    (types_skinned roles limits named_vertexChannel)

/-! ## Outputs of the vertex stage -/

/-- The position of the vertex on the screen. -/
lemma types_position (roles : Roles) (limits : BoneLimits) :
    Types samplerType needs (position roles limits) fun _ => [] := by
  rw [position]
  refine .bind (.output .position) fun out => ?_
  split
  · refine .bind (.vertexAttribute (.of_mem (by simp [words]))) fun vertex => ?_
    refine .bind (.uniform (.of_mem (by simp [words]))) fun modelView => ?_
    refine .bind (.uniform (.of_mem (by simp [words]))) fun projection => ?_
    exact .bind (.writes "vec4" rfl rfl (by simp [BuiltinOutput.glslType])) fun _ =>
      .pure (List.nil_subset _)
  · refine .bind (.uniform (.of_mem (by simp [words]))) fun projection => ?_
    refine .bind (types_viewVertex roles limits) fun vertex => ?_
    exact .bind (.writes "vec4" rfl rfl (by simp [BuiltinOutput.glslType])) fun _ =>
      .pure (List.nil_subset _)

/-- What a varying carries has the type of the varying. -/
lemma types_writeVarying (roles : Roles) (limits : BoneLimits) {name type : String}
    (h : Carried name type) {id : NodeId} (hid : .typed id type ∈ needs) :
    Types samplerType needs (writeVarying roles limits name id) fun _ => [] := by
  have hvertex : ∀ needs, Types samplerType needs (localVertex roles limits) fun _ => [] :=
    fun _ => types_skinned roles limits named_vertexChannel
  have hgeometry : ∀ source, varyingSource roles limits name = some source →
      name ≠ "vVertexColor" → type ∈ combinable type →
      Types samplerType needs source (fun value => [.typed value type]) →
      Types samplerType needs (writeVarying roles limits name id) fun _ => [] := by
    intro source hsource hcolor htype htyped
    rw [writeVarying, hsource, if_neg hcolor]
    refine .bind htyped fun value => ?_
    refine .bind (.combine type (.inr (.inr rfl)) (by simp [hid]) fun id hid => ?_) fun _ => ?_
    · rw [List.mem_singleton.1 hid]
      exact ⟨type, htype, by simp⟩
    · exact .pure (List.nil_subset _)
  cases h with
  | vertexColor =>
    have hnone : varyingSource roles limits "vVertexColor" = none := rfl
    rw [writeVarying, hnone]
    refine .bind (.uniform (.of_mem (by simp [words]))) fun enabled => ?_
    refine .bind (.vertexAttribute (.of_mem (by simp [words]))) fun color => ?_
    exact .bind (.writes "vec4" rfl rfl (by simp [hid])) fun _ => .pure (List.nil_subset _)
  | viewNormal =>
    exact hgeometry _ rfl (by decide) (by decide)
      (types_transformed (by simp [words]) (by simp [words]) (types_localNormal roles limits))
  | viewVertex => exact hgeometry _ rfl (by decide) (by decide) (types_viewVertex roles limits)
  | modelVertex =>
    exact hgeometry _ rfl (by decide) (by decide)
      (types_transformed (by simp [words]) (by simp [words]) (hvertex _))
  | texCoord unit =>
    have hcolor : "vTexCoord" ++ toString unit ≠ "vVertexColor" := texCoord_ne (by decide) unit
    rw [writeVarying, varyingSource_texCoord, if_neg hcolor]
    exact .pure (List.nil_subset _)

/-- Varyings that carry geometry or colors. -/
lemma types_writeVaryings (roles : Roles) (limits : BoneLimits) {varyings : List (String × NodeId)}
    (h : ∀ e ∈ varyings, ∃ type, Carried e.1 type ∧ .typed e.2 type ∈ needs) :
    Types samplerType needs (writeVaryings roles limits varyings) fun _ => [] := by
  induction varyings with
  | nil =>
    rw [writeVaryings]
    exact .pure (List.nil_subset _)
  | cons e varyings ih =>
    obtain ⟨⟨type, hcarried, htyped⟩, hrest⟩ := List.forall_mem_cons.1 h
    rw [writeVaryings]
    exact .bind (types_writeVarying roles limits hcarried htyped) fun _ => ih hrest

/-- Texture coordinates have two components, as the varying that carries them. -/
lemma types_writeTexCoord {name type : String} (h : Carried name type) {id : NodeId}
    (hid : .typed id type ∈ needs) :
    Types samplerType needs (writeTexCoord name id) fun _ => [] := by
  rw [writeTexCoord]
  split
  next hmark =>
    obtain ⟨unit, hattribute⟩ := texCoordAttribute?_of_carried h hmark
    rw [hattribute]
    refine .bind (.vertexAttribute (hasType_texCoord unit)) fun coordinates => ?_
    have htype : type = "vec2" := by
      cases h with
      | texCoord unit => rfl
      | _ => exact absurd hmark (by decide)
    subst htype
    refine .bind (.combine "vec2" (.inr (.inr rfl)) (by simp [hid]) (by simp [combinable])) fun _ => ?_
    exact .pure (List.nil_subset _)
  next => exact .pure (List.nil_subset _)

/-- Varyings that carry texture coordinates. -/
lemma types_writeTexCoords {varyings : List (String × NodeId)}
    (h : ∀ e ∈ varyings, ∃ type, Carried e.1 type ∧ .typed e.2 type ∈ needs) :
    Types samplerType needs (writeTexCoords varyings) fun _ => [] := by
  induction varyings with
  | nil =>
    rw [writeTexCoords]
    exact .pure (List.nil_subset _)
  | cons e varyings ih =>
    obtain ⟨⟨type, hcarried, htyped⟩, hrest⟩ := List.forall_mem_cons.1 h
    rw [writeTexCoords]
    exact .bind (types_writeTexCoord hcarried htyped) fun _ => ih hrest

/-- The graph of a vertex stage. -/
lemma types_build (roles : Roles) (limits : BoneLimits) {varyings : List (String × NodeId)}
    (h : ∀ e ∈ varyings, ∃ type, Carried e.1 type ∧ .typed e.2 type ∈ needs) :
    Types samplerType needs (build roles limits varyings) fun _ => [] := by
  rw [build]
  refine .bind (.output .pointSize) fun pointSize => ?_
  refine .bind (.constant (.of_mem (by simp [words]))) fun one => ?_
  refine .bind (.combine "float" (.inr (.inr rfl)) (by simp [BuiltinOutput.glslType])
    (by simp [combinable])) fun _ => ?_
  refine .bind (types_position roles limits) fun position => ?_
  refine .bind (types_writeVaryings roles limits fun e he => ?_) fun _ => ?_
  · exact (h e he).imp fun type htype => ⟨htype.1, by simp [htype.2]⟩
  refine .bind (types_writeTexCoords fun e he => ?_) fun _ => ?_
  · exact (h e he).imp fun type htype => ⟨htype.1, by simp [htype.2]⟩
  exact .bind .programName fun name => .pure (List.nil_subset _)

end VertexGraph

namespace Graph

variable {fragment g : Graph} {roots : List NodeId}

/-- A graph that owes one more varying of a sound fragment graph stays well typed. -/
lemma Typed.owe (h : g.Typed samplerType) (hfragment : fragment.Sound roots)
    {e : String × NodeId} (he : e ∈ fragment.varyings) : (fragment.owe g e).Typed samplerType := by
  obtain ⟨v, hv, -, hname, hcarried⟩ := hfragment.varyings e he
  let owed : Variable := { cls := .varying, type := v.type, name := e.1 }
  have hnamed : owed.Named samplerType := .inl (hname ▸ hcarried).hasType
  let joined := (g.insertVariable owed).2.addVarying e.1 (g.insertVariable owed).1
  have hjoined : joined.Typed samplerType ∧ (g.insertVariable owed).2.Enlarges joined :=
    (h.insertVariable hnamed).1.congr rfl rfl
  rw [Graph.owe, hv, Option.map_some, Option.getD_some]
  exact hjoined.1

/-- The vertex graph that owes a sound fragment graph its varyings is well typed. -/
lemma Sound.typed_vertexFor (h : fragment.Sound roots) : fragment.vertexFor.Typed samplerType := by
  have hfold : ∀ es ⊆ fragment.varyings, ∀ g : Graph, g.Typed samplerType →
      (es.foldl (Graph.owe fragment) g).Typed samplerType := by
    intro es hes
    induction es with
    | nil => exact fun g hg => hg
    | cons e es ih =>
      obtain ⟨he, hrest⟩ := List.cons_subset.1 hes
      exact fun g hg => ih hrest _ (hg.owe h he)
  exact hfold fragment.varyings (List.Subset.refl _) _ (typed_ofStage .vertex)

end Graph

/-- **The vertex graph of roles is well typed**, for every sound fragment graph that it feeds. -/
theorem Roles.typed_vertexGraph (roles : Roles) (limits : BoneLimits) {fragment : Graph}
    (h : fragment.Sound []) : (roles.vertexGraph limits fragment).graph.Typed samplerType := by
  have howes : Graph.Owes [] fragment fragment.varyings fragment.vertexFor := h.owes_vertexFor
  let types := fragment.vertexFor.varyings.map fun e =>
    TypeFact.typed e.2 (((fragment.vertexFor.declared? e.2).map (·.type)).getD "")
  have htyped : ∀ e ∈ fragment.vertexFor.varyings, ∃ v,
      fragment.vertexFor.declared? e.2 = some v ∧ Carried e.1 v.type ∧ .typed e.2 v.type ∈ types := by
    intro e he
    obtain ⟨v, hv, -, hname, hcarried⟩ := howes.sound.varyings e he
    refine ⟨v, hv, hname ▸ hcarried, List.mem_map.2 ⟨e, he, ?_⟩⟩
    rw [hv, Option.map_some, Option.getD_some]
  have htypes : Types samplerType types
      (VertexGraph.build roles limits fragment.vertexFor.varyings) fun _ => [] :=
    VertexGraph.types_build roles limits
      fun e he => (htyped e he).elim fun v hv => ⟨v.type, hv.2⟩
  refine (htypes fragment.vertexFor h.typed_vertexFor fun fact hfact => ?_).1
  obtain ⟨e, he, rfl⟩ := List.mem_map.1 hfact
  obtain ⟨v, hv, -⟩ := htyped e he
  rw [hv, Option.map_some, Option.getD_some]
  exact Graph.type?_of_declared? hv

end SceneShading
