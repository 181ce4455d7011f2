import Mathlib.Tactic
import SceneShading.Program.Compile
import SceneShading.Proofs.Graph.Makes

/-!
# Surfaces and depth passes are sound

Every builder of a fragment graph is judged by the rules of `Serves`, in the order of its requests,
and its judgement says what can be read of its answer. The lists that a surface is built from are
gone through by induction: fields of uniforms, shadow maps, lights and textures. A fragment graph has
no roots that are variables, so it may not write its varyings.

The pins of a light and of a receiver come from several places, and later ones replace earlier ones
of the same name; that all pins are there which the kind of operation needs is read off the names
alone (`receivePins_subset`, `lightPins_subset`).
-/

namespace SceneShading

open Builder NodeFact

variable {asks : Bool} {roots : List NodeId} {needs : List NodeFact}

namespace MaterialUniforms

/-- The nodes of the uniforms. -/
@[simp]
def nodes (m : MaterialUniforms) : List NodeId :=
  [m.ambient, m.diffuse, m.specular, m.emission, m.shininess]

end MaterialUniforms

namespace FragmentGraph

/-- The uniforms of a material can be read. -/
lemma makes_materialUniforms :
    Makes asks roots needs materialUniforms fun m => readsAll m.nodes := by
  rw [materialUniforms]
  refine .bind (.uniform (.of_mem (by simp [words]))) fun ambient => ?_
  refine .bind (.uniform (.of_mem (by simp [words]))) fun diffuse => ?_
  refine .bind (.uniform (.of_mem (by simp [words]))) fun specular => ?_
  refine .bind (.uniform (.of_mem (by simp [words]))) fun emission => ?_
  refine .bind (.uniform (.of_mem (by simp [words]))) fun shininess => ?_
  exact .pure (by simp) rfl

/-- The surface without material writes the color of the fragment. -/
lemma makes_plain : Makes asks roots needs plain fun _ => [] := by
  rw [plain]
  refine .bind (.constant (.of_mem (by simp [words])) (by decide)) fun magenta => ?_
  refine .bind (.output .fragColor) fun color => ?_
  refine .emit (.combine (.inr (.inr rfl)) (by simp)) rfl (by simp) (by simp) fun _ => ?_
  exact .pure (by simp) rfl

/-- The pins of the code that colors a surface. The color is assigned before it is read. -/
lemma pins_vertexColorCode :
    Snippet.pins vertexColorCode =
        ["color", "diffuse", "hasVertexColor", "color", "vertexColor"] ∧
      "color" ∉ Snippet.exposed vertexColorCode ∧ "color" ∈ Snippet.assigned vertexColorCode := by
  decide

/-- The diffuse color with the color of the vertices can be read. -/
lemma makes_vertexColor {diffuse : NodeId} (hdiffuse : .reads diffuse ∈ needs) :
    Makes asks [] needs (vertexColor diffuse) fun id => [.reads id] := by
  rw [vertexColor]
  refine .bind (.varying .vertexColor) fun vertexColor => ?_
  refine .bind (.uniform (.of_mem (by simp [words]))) fun enabled => ?_
  refine .bindLocal (.temporary (by decide)) fun color => ?_
  refine .write (.snippet (by decide) (by simp [pins_vertexColorCode])
    (.inl pins_vertexColorCode.2)) rfl (by simp [hdiffuse]) fun id => ?_
  refine .bind (.comment (by decide) (by simp)) fun _ => ?_
  exact .pure (by simp) rfl

/-! ## Geometry of the fragment -/

/-- The normal on the side that faces the viewer can be read. -/
lemma makes_frontNormal : Makes asks [] needs frontNormal fun id => [.reads id] := by
  rw [frontNormal]
  refine .bindLocal (.localNamed (.of_mem (by simp [words])) fun _ => by decide) fun front => ?_
  refine .bind (.varying .viewNormal) fun viewNormal => ?_
  refine .write (.pins rfl (by simp) (by simp)) rfl (by simp) fun _ => ?_
  exact .pure (by simp) rfl

/-- The unit normal can be read. -/
lemma makes_normal : Makes true [] needs normal fun id => [.reads id] := by
  rw [normal]
  refine .orElse (by decide) (.lower ?_)
  refine .bindLocal (.localNamed (.of_mem (by simp [words])) nofun) fun out => ?_
  refine .bind makes_frontNormal fun front => ?_
  refine .write (.pins rfl (by simp) (by simp)) rfl (by simp) fun _ => ?_
  exact .pure (by simp) rfl

/-- The vector to the viewer can be read. -/
lemma makes_eyeVector : Makes true [] needs eyeVector fun id => [.reads id] := by
  rw [eyeVector]
  refine .orElse (by decide) (.lower ?_)
  refine .bindLocal (.temporary (by decide)) fun normalized => ?_
  refine .bindLocal (.temporary (by decide)) fun eye => ?_
  refine .bind (.varying .viewVertex) fun viewVertex => ?_
  refine .write (.combine (.inr (.inr rfl)) (by simp)) rfl (by simp) fun _ => ?_
  refine .write (.pins rfl (by simp) (by simp)) rfl (by simp) fun _ => ?_
  refine .bindLocal (.localNamed (.of_mem (by simp [words])) nofun) fun out => ?_
  refine .bindLocal (.localValued (by decide) (by decide)) fun minusOne => ?_
  refine .close (by simp) ?_
  refine .write (.combine (.inr (.inl rfl)) (by simp)) rfl (by simp) fun _ => ?_
  exact .pure (by simp) rfl

/-! ## Shadows -/

/-- The names of the pins of a receiver. -/
def receiverNames : List String := receiverFields.map ("shadow" ++ ·)

/-- The names of the pins of a shadow map. -/
def shadowMapNames : List String := shadowMapFields.map (·.2.1) ++ ["shadowTexture"]

/-- The pins of a receiver are named after its fields. -/
lemma names_receiverPins (light : Nat) (fields : List String) :
    Answers (receiverPins light fields) fun pins =>
      pins.map (·.1) = fields.map ("shadow" ++ ·) := by
  induction fields with
  | nil =>
    rw [receiverPins]
    exact .pure rfl
  | cons field fields ih =>
    rw [receiverPins]
    refine .bind (.any _) fun id _ => .bind ih fun pins hpins => .pure ?_
    rw [List.map_cons, hpins, List.map_cons]

/-- The pins of a receiver can be read. -/
lemma makes_receiverPins (light : Nat) (fields : List String) (h : fields ⊆ receiverFields) :
    Makes asks roots needs (receiverPins light fields) fun pins => readsAll (pins.map (·.2)) := by
  induction fields generalizing needs with
  | nil =>
    rw [receiverPins]
    exact .pure (by simp) rfl
  | cons field fields ih =>
    obtain ⟨hfield, hfields⟩ := List.cons_subset.1 h
    rw [receiverPins]
    refine .bind (.uniform (hasType_receiver light hfield)) fun id => ?_
    refine .bind (ih hfields) fun pins => ?_
    exact .pure (by simp) rfl

/-- The pins of the uniforms of a shadow map are named as listed. -/
lemma names_shadowMapUniforms (unit : Nat) (fields : List (String × String × String)) :
    Answers (shadowMapUniforms unit fields) fun pins => pins.map (·.1) = fields.map (·.2.1) := by
  induction fields with
  | nil =>
    rw [shadowMapUniforms]
    exact .pure rfl
  | cons e fields ih =>
    rw [shadowMapUniforms]
    refine .bind (.any _) fun id _ => .bind ih fun pins hpins => .pure ?_
    rw [List.map_cons, hpins, List.map_cons]

/-- The uniforms of a shadow map can be read. -/
lemma makes_shadowMapUniforms (unit : Nat) (fields : List (String × String × String))
    (h : fields ⊆ shadowMapFields) :
    Makes asks roots needs (shadowMapUniforms unit fields) fun pins =>
      readsAll (pins.map (·.2)) := by
  induction fields generalizing needs with
  | nil =>
    rw [shadowMapUniforms]
    exact .pure (by simp) rfl
  | cons e fields ih =>
    obtain ⟨hfield, hfields⟩ := List.cons_subset.1 h
    rw [shadowMapUniforms]
    refine .bind (.uniform (hasType_shadowMap unit hfield)) fun id => ?_
    refine .bind (ih hfields) fun pins => ?_
    exact .pure (by simp) rfl

/-- The pins of a shadow map have its names. -/
lemma names_shadowMapPins (unit : Nat) :
    Answers (shadowMapPins unit) fun pins => pins.map (·.1) = shadowMapNames := by
  rw [shadowMapPins]
  refine .bind (.any _) fun map _ => .bind (names_shadowMapUniforms unit _) fun pins hpins => ?_
  refine .pure ?_
  rw [List.map_append, hpins]
  rfl

/-- The pins of a shadow map can be read. -/
lemma makes_shadowMapPins (unit : Nat) :
    Makes asks roots needs (shadowMapPins unit) fun pins => readsAll (pins.map (·.2)) := by
  rw [shadowMapPins]
  refine .bind (.sampler (letters_samplerName unit) (by decide)) fun map => ?_
  refine .bind (makes_shadowMapUniforms unit shadowMapFields (List.Subset.refl _)) fun pins => ?_
  exact .pure (by simp) rfl

/-- Shadow maps add their names to those of other pins. -/
lemma names_addShadowMaps (units : List Nat) (pins : Pins) :
    Answers (addShadowMaps pins units) fun all =>
      pins.map (·.1) ⊆ all.map (·.1) ∧ (units ≠ [] → shadowMapNames ⊆ all.map (·.1)) := by
  induction units generalizing pins with
  | nil =>
    rw [addShadowMaps]
    exact .pure ⟨List.Subset.refl _, fun h => absurd rfl h⟩
  | cons unit units ih =>
    rw [addShadowMaps]
    refine .bind (names_shadowMapPins unit) fun others hothers => ?_
    refine fun g => ⟨fun name hname => ?_, fun _ name hname => ?_⟩
    · exact (ih _ g).1 (Pins.mem_names_setAll.2 (.inl hname))
    · exact (ih _ g).1 (Pins.mem_names_setAll.2 (.inr (hothers ▸ hname)))

/-- Shadow maps add their pins to other ones. -/
lemma makes_addShadowMaps (units : List Nat) {pins : Pins}
    (hpins : readsAll (pins.map (·.2)) ⊆ needs) :
    Makes asks roots needs (addShadowMaps pins units) fun all => readsAll (all.map (·.2)) := by
  induction units generalizing pins needs with
  | nil =>
    rw [addShadowMaps]
    exact .pure hpins rfl
  | cons unit units ih =>
    rw [addShadowMaps]
    refine .bind (makes_shadowMapPins unit) fun others => ?_
    refine ih (List.Subset.trans (readsAll_subset (Pins.nodes_setAll pins others)) ?_)
    rw [readsAll_append]
    exact List.append_subset.2 ⟨List.subset_append_left _ _, List.subset_append_of_subset_right _ hpins⟩

/-- The pins of a receiving function come from the light, the geometry, the receiver and the shadow
maps, whatever its algorithm. -/
lemma receivePins_subset (config : ShadowConfig) :
    config.receivePins ⊆ ["lighted", "lightNDL", "vertexWorld"] ++ receiverNames ++
      shadowMapNames := by
  have halgorithm : config.algorithmPins ⊆ receiverNames := by
    rw [ShadowConfig.algorithmPins]
    cases config.algorithm <;> decide
  have hshared : ["lighted", "shadowTexture", "shadowTextureMapSize",
      "shadowTextureProjectionMatrix", "shadowTextureViewMatrix", "shadowTextureDepthRange",
      "lightNDL", "vertexWorld", "shadowbias"] ⊆
        ["lighted", "lightNDL", "vertexWorld"] ++ receiverNames ++ shadowMapNames := by
    decide
  rw [ShadowConfig.receivePins, List.append_subset]
  refine ⟨hshared, fun name hname => ?_⟩
  rw [List.append_assoc]
  exact List.mem_append_right _ (List.mem_append_left _ (halgorithm hname))

/-- The lit color in shadow can be read, if there is a shadow map and the light has left what the
receiving function takes of it. -/
lemma makes_shadowed (receiver : ShadowReceive) {units : List Nat} (hunits : units ≠ [])
    {lightPins : Pins} (hnames : ["lighted", "lightNDL"] ⊆ lightPins.map (·.1))
    (hpins : readsAll (lightPins.map (·.2)) ⊆ needs) {lit : NodeId} (hlit : .reads lit ∈ needs) :
    Makes asks [] needs (shadowed receiver units lightPins lit) fun id => [.reads id] := by
  rw [shadowed]
  refine .bind (.varying .modelVertex) fun vertexWorld => ?_
  refine .bindLocal (.temporary (by decide)) fun shadow => ?_
  refine .bindAnswer (makes_receiverPins _ _ (List.Subset.refl _)) (names_receiverPins _ _)
    fun ofReceiver hreceiver => ?_
  have hmaps : readsAll ((lightPins.setAll ofReceiver).map (·.2)) ⊆
      readsAll (ofReceiver.map (·.2)) ++ ([.reads vertexWorld] ++ needs) := by
    have hnodes := readsAll_subset (Pins.nodes_setAll lightPins ofReceiver)
    rw [readsAll_append] at hnodes
    grind
  refine .bindAnswer (makes_addShadowMaps units hmaps) (names_addShadowMaps _ _) fun pins hall => ?_
  · have hinputs : receiver.config.receivePins ⊆
        (pins.set "vertexWorld" vertexWorld).map (·.1) := by
      intro name hname
      rw [Pins.mem_names_set]
      have hfrom := receivePins_subset receiver.config hname
      rw [List.mem_append, List.mem_append] at hfrom
      rcases hfrom with (hlight | hreceived) | hmap
      · have hcases : name ∈ ["lighted", "lightNDL"] ∨ name = "vertexWorld" := by
          simpa [or_assoc] using hlight
        exact hcases.imp_left fun h => hall.1 (Pins.mem_names_setAll.2 (.inl (hnames h)))
      · exact .inl (hall.1 (Pins.mem_names_setAll.2 (.inr (hreceiver ▸ hreceived))))
      · exact .inl (hall.2 hunits hmap)
    refine .write (.pins rfl hinputs (by simp)) rfl ?_ fun _ => ?_
    · have hnodes := readsAll_subset (Pins.nodes_set pins "vertexWorld" vertexWorld)
      rw [readsAll_cons] at hnodes
      grind
    refine .bindLocal (.localNamed (.of_mem (by simp [words])) fun _ => by decide) fun out => ?_
    refine .write (.combine (.inr (.inl rfl)) (by simp)) rfl (by simp [hlit]) fun _ => ?_
    exact .pure (by simp) rfl

/-! ## Lights -/

/-- The pins of the uniforms of a light are named after their fields. -/
lemma names_lightPins (number : Nat) (fields : List String) :
    Answers (lightPins number fields) fun pins =>
      pins.map (·.1) = fields.map Light.uniformPin := by
  induction fields with
  | nil =>
    rw [lightPins]
    exact .pure rfl
  | cons field fields ih =>
    rw [lightPins]
    refine .bind (.any _) fun id _ => .bind ih fun pins hpins => .pure ?_
    rw [List.map_cons, hpins, List.map_cons]

/-- The uniforms of a light can be read. -/
lemma makes_lightPins (number : Nat) {model : LightModel} (fields : List String)
    (h : fields ⊆ model.uniformFields) :
    Makes asks roots needs (lightPins number fields) fun pins => readsAll (pins.map (·.2)) := by
  induction fields generalizing needs with
  | nil =>
    rw [lightPins]
    exact .pure (by simp) rfl
  | cons field fields ih =>
    obtain ⟨hfield, hfields⟩ := List.cons_subset.1 h
    rw [lightPins]
    refine .bind (.uniform (hasType_light number hfield)) fun id => ?_
    refine .bind (ih hfields) fun pins => ?_
    exact .pure (by simp) rfl

/-- The place of a light relative to the viewer is there if the light has a place. -/
lemma isSome_lightEyePos (type : LightType) (index : Nat) :
    Answers (lightEyePos type index) fun place => place.isSome = type.hasPlace := by
  rw [lightEyePos]
  cases type.hasPlace
  · exact .pure rfl
  · exact .bind (.any _) fun id _ => .pure rfl

/-- The name of a local with the number of a light. -/
lemma hasType_numbered {word type : String} (hword : (word, type) ∈ words .temporary) (index : Nat) :
    HasType .temporary (word ++ toString index) type := (HasType.of_mem hword).append_toString index

/-- The name of a local with the number of a light is not shared. -/
lemma not_isShared_numbered {word : String} (hword : ¬IsShared word) (index : Nat) :
    ¬IsShared (word ++ toString index) := by
  rwa [isShared_append_toString]

/-- The place of a light relative to the viewer is open. -/
lemma serves_lightEyePos (type : LightType) (index : Nat) :
    Serves asks roots needs [] (lightEyePos type index) (fun _ => []) fun place =>
      place.toList := by
  rw [lightEyePos]
  split
  · refine .bindLocal (.localNamed (hasType_numbered (by simp [words]) index)
      fun _ => not_isShared_numbered (by decide) index) fun id => ?_
    exact .pure (by simp) rfl
  · exact .pure (by simp) rfl

/-- The pins that shading a light adds to those of the light and of the material. -/
def shadingNames (hasPlace : Bool) : List String :=
  ["lighted"] ++ (if hasPlace then ["lightEyePos"] else []) ++
    ["lightEyeDir", "lightNDL", "normal", "eyeVector"]

/-- The pins of a light model come from the light, the material and the shading. -/
lemma requiredInputs_light (type : LightType) :
    (NodeKind.light type.model).requiredInputs ⊆
      type.model.uniformFields.map Light.uniformPin ++
        ["materialambient", "materialspecular", "materialemission", "materialshininess",
          "materialdiffuse"] ++ shadingNames type.hasPlace := by
  cases type <;> decide

/-- A light with a receiver has a shadow map. -/
lemma units_of_shadowOf {roles : Roles} {light : Light} {receiver : ShadowReceive}
    {units : List Nat} (h : roles.shadowOf light = some (receiver, units)) : units ≠ [] := by
  obtain ⟨other, -, hunits⟩ := Option.bind_eq_some_iff.1 h
  dsimp only at hunits
  split at hunits
  · cases hunits
  next hne =>
    rw [Option.some.injEq, Prod.mk.injEq] at hunits
    rw [← hunits.2]
    rintro hnil
    exact hne (List.isEmpty_iff.2 hnil)

/-- The pins of shading a light: those of the light, of the material and of the shading itself. -/
def shadingPins (material : MaterialUniforms) (diffuse : NodeId) (ofLight place : Pins)
    (lighted eyeDir ndl normal eyeVector : NodeId) : Pins :=
  (ofLight.setAll (materialPins material diffuse)).setAll <|
    [("lighted", lighted)] ++ place ++
      [("lightEyeDir", eyeDir), ("lightNDL", ndl), ("normal", normal), ("eyeVector", eyeVector)]

/-- The pins of what shading a light writes. -/
def shadingOutputs (place : Pins) (lit eyeDir ndl lighted : NodeId) : Pins :=
  [("color", lit)] ++ place ++ [("lightEyeDir", eyeDir), ("ndl", ndl), ("lighted", lighted)]

section Shading

variable (material : MaterialUniforms) (diffuse : NodeId) (ofLight : Pins) (place : Option NodeId)
  (lighted eyeDir ndl normal eyeVector : NodeId)

/-- The names of the pins of shading a light. -/
lemma mem_names_shadingPins {name : String} :
    name ∈ (shadingPins material diffuse ofLight (place.toList.map ("lightEyePos", ·)) lighted
      eyeDir ndl normal eyeVector).map (·.1) ↔
        name ∈ ofLight.map (·.1) ++ ["materialambient", "materialspecular", "materialemission",
          "materialshininess", "materialdiffuse"] ++ shadingNames place.isSome := by
  have hnames : ([("lighted", lighted)] ++ place.toList.map ("lightEyePos", ·) ++
      [("lightEyeDir", eyeDir), ("lightNDL", ndl), ("normal", normal), ("eyeVector", eyeVector)] :
        Pins).map (·.1) = shadingNames place.isSome := by
    cases place <;> rfl
  rw [shadingPins, Pins.mem_names_setAll, Pins.mem_names_setAll, hnames, List.mem_append,
    List.mem_append]
  rfl

/-- A pin of shading a light is wired to what the shading finds out or to the geometry, or else to a
node of the light or of the material. -/
lemma mem_shadingPins {p : String × NodeId}
    (hp : p ∈ shadingPins material diffuse ofLight (place.toList.map ("lightEyePos", ·)) lighted
      eyeDir ndl normal eyeVector) :
    p ∈ [("lighted", lighted)] ++ place.toList.map ("lightEyePos", ·) ++
        [("lightEyeDir", eyeDir), ("lightNDL", ndl), ("normal", normal), ("eyeVector", eyeVector)] ∨
      p.2 ∈ diffuse :: material.nodes ++ ofLight.map (·.2) := by
  refine (Pins.mem_setAll hp).imp_right fun h => ?_
  rcases Pins.mem_setAll h with hmaterial | hlight
  · have hnodes : p.2 ∈ (materialPins material diffuse).map (·.2) := List.mem_map_of_mem hmaterial
    simp only [materialPins, MaterialUniforms.nodes, List.map_cons, List.map_nil, List.mem_cons,
      List.mem_append] at hnodes ⊢
    tauto
  · exact List.mem_append_right _ (List.mem_map_of_mem hlight)

/-- The nodes of the pins of shading a light. -/
lemma nodes_shadingPins :
    (shadingPins material diffuse ofLight (place.toList.map ("lightEyePos", ·)) lighted
      eyeDir ndl normal eyeVector).map (·.2) ⊆
        [lighted, eyeDir, ndl, normal, eyeVector, diffuse] ++ material.nodes ++ place.toList ++
          ofLight.map (·.2) := by
  intro node hnode
  obtain ⟨p, hp, rfl⟩ := List.mem_map.1 hnode
  have hnew : ([("lighted", lighted)] ++ place.toList.map ("lightEyePos", ·) ++
      [("lightEyeDir", eyeDir), ("lightNDL", ndl), ("normal", normal), ("eyeVector", eyeVector)] :
        Pins).map (·.2) ⊆ [lighted, eyeDir, ndl, normal, eyeVector, diffuse] ++ material.nodes ++
          place.toList ++ ofLight.map (·.2) := by
    cases place <;> simp
  rcases mem_shadingPins _ _ _ _ _ _ _ _ _ hp with hshading | hother
  · exact hnew (List.mem_map_of_mem hshading)
  · have hold : diffuse :: material.nodes ++ ofLight.map (·.2) ⊆ [lighted, eyeDir, ndl, normal,
        eyeVector, diffuse] ++ material.nodes ++ place.toList ++ ofLight.map (·.2) := by
      refine List.append_subset.2 ⟨?_, List.subset_append_right _ _⟩
      simp
    exact hold hother

variable {material diffuse ofLight place lighted eyeDir ndl normal eyeVector}

/-- The pins that lights of all types write through. -/
lemma mem_outPins {name : String} (type : LightType)
    (h : name ∈ ["lighted", "lightEyeDir", "lightNDL"]) :
    name ∈ (NodeKind.light type.model).outPins := by
  revert h name
  cases type <;> decide

/-- A light that has a place writes where it is. -/
lemma lightEyePos_mem_outPins {type : LightType} (h : type.hasPlace = true) :
    "lightEyePos" ∈ (NodeKind.light type.model).outPins := by
  revert h
  cases type <;> decide

/-- What shading a light finds out is wired to the out-parameters of the light. -/
lemma mem_outPins_of_mem_shadingPins {type : LightType} (hplace : place.isSome = type.hasPlace)
    {p : String × NodeId}
    (hp : p ∈ shadingPins material diffuse ofLight (place.toList.map ("lightEyePos", ·)) lighted
      eyeDir ndl normal eyeVector)
    (hread : p.2 ∉ [normal, eyeVector, diffuse] ++ material.nodes ++ ofLight.map (·.2)) :
    p.1 ∈ (NodeKind.light type.model).outPins := by
  rw [List.mem_append, List.mem_append, not_or, not_or] at hread
  rcases mem_shadingPins _ _ _ _ _ _ _ _ _ hp with hshading | hother
  · simp only [List.mem_append, List.mem_map, List.mem_cons, List.not_mem_nil, or_false] at hshading
    rcases hshading with (rfl | ⟨id, hid, rfl⟩) | rfl | rfl | rfl | rfl
    · exact mem_outPins type (by simp)
    · refine lightEyePos_mem_outPins ?_
      rw [← hplace, Option.mem_toList.1 hid, Option.isSome_some]
    · exact mem_outPins type (by simp)
    · exact mem_outPins type (by simp)
    · exact absurd (by simp) hread.1.1
    · exact absurd (by simp) hread.1.1
  · rcases List.mem_append.1 hother with hmaterial | hlight
    · rcases List.mem_cons.1 hmaterial with hdiffuse | hmaterial
      · exact absurd (by simp [hdiffuse]) hread.1.1
      · exact absurd hmaterial hread.1.2
    · exact absurd hlight hread.2

/-- What shading a light writes is wired to its output or to its out-parameters. -/
lemma lookup_of_mem_shadingOutputs {type : LightType} (hplace : place.isSome = type.hasPlace)
    {lit target : NodeId}
    (htarget : target ∈ (shadingOutputs (place.toList.map ("lightEyePos", ·)) lit eyeDir ndl
      lighted).map (·.2)) :
    (∃ pin ∈ (NodeKind.light type.model).requiredOutputs,
        (shadingOutputs (place.toList.map ("lightEyePos", ·)) lit eyeDir ndl lighted).lookup pin =
          some target) ∨
      ∃ pin ∈ (NodeKind.light type.model).outPins, (shadingPins material diffuse ofLight
        (place.toList.map ("lightEyePos", ·)) lighted eyeDir ndl normal eyeVector).lookup pin =
          some target := by
  have hnodup : (([("lighted", lighted)] ++ place.toList.map ("lightEyePos", ·) ++
      [("lightEyeDir", eyeDir), ("lightNDL", ndl), ("normal", normal), ("eyeVector", eyeVector)] :
        Pins).map (·.1)).Nodup := by
    cases place <;> simp
  have hlookup := fun p => @Pins.lookup_setAll (ofLight.setAll (materialPins material diffuse)) _
    hnodup p
  obtain ⟨p, hp, rfl⟩ := List.mem_map.1 htarget
  simp only [shadingOutputs, List.mem_append, List.mem_map, List.mem_cons, List.not_mem_nil,
    or_false] at hp
  rcases hp with (rfl | ⟨id, hid, rfl⟩) | rfl | rfl | rfl
  · exact .inl ⟨"color", by simp, List.lookup_cons_self⟩
  · refine .inr ⟨"lightEyePos", lightEyePos_mem_outPins ?_,
      hlookup ("lightEyePos", id) (by simp [Option.mem_toList.1 hid])⟩
    rw [← hplace, Option.mem_toList.1 hid, Option.isSome_some]
  · exact .inr ⟨"lightEyeDir", mem_outPins type (by simp), hlookup ("lightEyeDir", eyeDir) (by simp)⟩
  · exact .inr ⟨"lightNDL", mem_outPins type (by simp), hlookup ("lightNDL", ndl) (by simp)⟩
  · exact .inr ⟨"lighted", mem_outPins type (by simp), hlookup ("lighted", lighted) (by simp)⟩

end Shading

/-- The shading of a light writes the lit color and what it finds out about the light, and it may read
the latter. -/
lemma serves_shading {material : MaterialUniforms} {diffuse : NodeId} {type : LightType}
    {ofLight : Pins} {place : Option NodeId} {lighted eyeDir ndl normal eyeVector lit : NodeId}
    (hnames : ofLight.map (·.1) = type.model.uniformFields.map Light.uniformPin)
    (hplace : place.isSome = type.hasPlace)
    (hneeds : readsAll ([normal, eyeVector, diffuse] ++ material.nodes ++ ofLight.map (·.2)) ⊆
      needs) :
    Serves asks roots needs (ndl :: eyeDir :: (place.toList ++ [lighted, lit]))
      (operation (.light type.model)
        (shadingPins material diffuse ofLight (place.toList.map ("lightEyePos", ·)) lighted eyeDir
          ndl normal eyeVector).inputs
        (.named (shadingOutputs (place.toList.map ("lightEyePos", ·)) lit eyeDir ndl lighted)))
      (fun id => .node id :: readsAll (ndl :: eyeDir :: (place.toList ++ [lighted, lit])))
      fun _ => [] := by
  have hinputs : (NodeKind.light type.model).requiredInputs ⊆ (shadingPins material diffuse ofLight
      (place.toList.map ("lightEyePos", ·)) lighted eyeDir ndl normal eyeVector).map (·.1) := by
    intro name hname
    rw [mem_names_shadingPins, hnames, hplace]
    exact requiredInputs_light type hname
  have htargets : ∀ id, id ∈ (Outputs.named (shadingOutputs (place.toList.map ("lightEyePos", ·))
      lit eyeDir ndl lighted)).targets ↔ id ∈ ndl :: eyeDir :: (place.toList ++ [lighted, lit]) := by
    intro id
    cases place <;> simp [shadingOutputs, Outputs.targets] <;> tauto
  refine .operatesAll (.named rfl hinputs (by simp [shadingOutputs]) fun _ =>
    lookup_of_mem_shadingOutputs hplace) (fun id hid => ?_)
    (fun id hid => .inl ((htargets id).1 hid)) fun id hid => (htargets id).2 hid
  by_cases hread : id ∈ [normal, eyeVector, diffuse] ++ material.nodes ++ ofLight.map (·.2)
  · exact .inl (hneeds (List.mem_map_of_mem hread))
  · -- what can not be read is wired to the pins of the light's out-parameters
    have hnode := nodes_shadingPins material diffuse ofLight place lighted eyeDir ndl normal
      eyeVector hid
    have hown : id ∈ ndl :: eyeDir :: (place.toList ++ [lighted, lit]) := by
      grind
    refine .inr ⟨hown, fun self e he heq => ?_⟩
    obtain ⟨_, hinput, rfl⟩ := List.mem_map.1 he
    obtain ⟨p, hp, rfl⟩ := List.mem_map.1 hinput
    cases heq
    exact ⟨p.1, mem_outPins_of_mem_shadingPins hplace hp hread, rfl⟩

/-- What a surface gets from a light can be read. -/
lemma makes_lightTerms (roles : Roles) {material : MaterialUniforms} {diffuse : NodeId}
    (index : Nat) (light : Light) (hneeds : readsAll (diffuse :: material.nodes) ⊆ needs) :
    Makes true [] needs (lightTerms roles material diffuse index light) fun ids => readsAll ids := by
  rw [lightTerms]
  refine .bindLocal (.temporary (by decide)) fun lit => ?_
  refine .bindAnswer (makes_lightPins light.number _ (List.Subset.refl _)) (names_lightPins _ _)
    fun ofLight hofLight => ?_
  refine .bindLocal (.localNamed (hasType_numbered (by simp [words]) index)
    fun _ => not_isShared_numbered (by decide) index) fun lighted => ?_
  refine .bindOption (serves_lightEyePos _ _) (isSome_lightEyePos _ _) fun place hplace => ?_
  refine .bindLocal (.localNamed (hasType_numbered (by simp [words]) index)
    fun _ => not_isShared_numbered (by decide) index) fun eyeDir => ?_
  refine .bindLocal (.localNamed (hasType_numbered (by simp [words]) index)
    fun _ => not_isShared_numbered (by decide) index) fun ndl => ?_
  refine .bind makes_normal fun normal => ?_
  refine .bind makes_eyeVector fun eyeVector => ?_
  extract_lets _ pins outputs ambientTerm
  have hterm : ∀ needs term, .reads term ∈ needs → .reads material.ambient ∈ needs →
      Makes true [] needs (ambientTerm term) fun ids => readsAll ids := by
    intro needs term hterm hambient
    refine .bindLocal (.localNamed (.of_mem (by simp [words])) fun _ => by decide) fun ambient => ?_
    refine .bind (.uniform (hasType_ambient light.number)) fun lightAmbient => ?_
    refine .write (.combine (.inr (.inl rfl)) (by simp)) rfl (by simp [hambient]) fun _ => ?_
    exact .pure (by simp [hterm]) rfl
  refine .bindAll (serves_shading hofLight hplace ?_) fun _ => ?_
  · simp only [readsAll_cons, readsAll_append, readsAll_nil, MaterialUniforms.nodes] at hneeds ⊢
    grind
  have hambient : .reads material.ambient ∈ needs := hneeds (by simp)
  split
  next receiver units hshadow =>
    refine .bind (makes_shadowed receiver (units_of_shadowOf hshadow) ?_ ?_ (by simp))
      fun term => hterm _ term (by simp) (by simp [hambient])
    · intro name hname
      refine (mem_names_shadingPins ..).2 (List.mem_append_right _ ?_)
      revert hname name
      cases place.isSome <;> decide
    · refine List.Subset.trans (readsAll_subset (nodes_shadingPins material diffuse ofLight place
        lighted eyeDir ndl normal eyeVector)) ?_
      simp only [readsAll_cons, readsAll_append, readsAll_nil, MaterialUniforms.nodes] at hneeds ⊢
      grind
  · exact hterm _ lit (by simp) (by simp [hambient])

/-- What a surface gets from lights can be read. -/
lemma makes_allLightTerms (roles : Roles) {material : MaterialUniforms} {diffuse : NodeId}
    (index : Nat) (lights : List Light) (hneeds : readsAll (diffuse :: material.nodes) ⊆ needs) :
    Makes true [] needs (allLightTerms roles material diffuse index lights)
      fun ids => readsAll ids := by
  induction lights generalizing index needs with
  | nil =>
    rw [allLightTerms]
    exact .pure (by simp) rfl
  | cons light lights ih =>
    rw [allLightTerms]
    refine .bind (makes_lightTerms roles index light hneeds) fun terms => ?_
    refine .bind (ih (index + 1) (List.subset_append_of_subset_right _ hneeds)) fun others => ?_
    exact .pure (by simp) rfl

/-- A surface gets something from a light. -/
lemma allLightTerms_ne_nil (roles : Roles) (material : MaterialUniforms) (diffuse : NodeId)
    (index : Nat) {lights : List Light} (hlights : lights ≠ []) :
    Answers (allLightTerms roles material diffuse index lights) fun ids => ids ≠ [] := by
  obtain ⟨light, lights, rfl⟩ := List.exists_cons_of_ne_nil hlights
  have hterms : Answers (lightTerms roles material diffuse index light) fun ids => ids ≠ [] := by
    rw [lightTerms]
    refine .bind (.any _) fun _ _ => .bind (.any _) fun _ _ => .bind (.any _) fun _ _ => ?_
    refine .bind (.any _) fun _ _ => .bind (.any _) fun _ _ => .bind (.any _) fun _ _ => ?_
    refine .bind (.any _) fun _ _ => .bind (.any _) fun _ _ => ?_
    extract_lets _ _ _ ambientTerm
    have hterm : ∀ term, Answers (ambientTerm term) fun ids => ids ≠ [] := by
      intro term
      refine .bind (.any _) fun _ _ => .bind (.any _) fun _ _ => .bind (.any _) fun _ _ => ?_
      exact .pure (List.cons_ne_nil _ _)
    refine .bind (.any _) fun _ _ => ?_
    split
    · exact .bind (.any _) fun term _ => hterm term
    · exact hterm _
  rw [allLightTerms]
  refine .bind hterms fun terms hne => .bind (.any _) fun others _ => .pure ?_
  exact List.append_ne_nil_of_left_ne_nil hne _

/-- The lit color can be read. -/
lemma makes_lighting (roles : Roles) {material : MaterialUniforms} {diffuse : NodeId}
    (hneeds : readsAll (diffuse :: material.nodes) ⊆ needs) :
    Makes true [] needs (lighting roles material diffuse) fun id => [.reads id] := by
  rw [lighting]
  split
  · exact .pure (List.Subset.trans (by simp) hneeds) rfl
  next hlights =>
    have hne : roles.lights ≠ [] := fun h => hlights (List.isEmpty_iff.2 h)
    refine .bindLocal (.temporary (by decide)) fun output => ?_
    refine .bindAnswer (makes_allLightTerms roles 0 roles.lights hneeds)
      (allLightTerms_ne_nil roles material diffuse 0 hne) fun terms hterms => ?_
    refine .write (.combine (.inl rfl) hterms) rfl (by simp) fun _ => ?_
    exact .pure (by simp) rfl

/-! ## Textures and alpha -/

/-- The texel of a texture can be read. -/
lemma makes_texel (unit : Nat) (texture : Texture) :
    Makes asks [] needs (texel unit texture) fun id => [.reads id] := by
  have htype : IsPlain texture.target.samplerType := by
    cases texture.target <;> decide
  rw [texel]
  refine .bind (.sampler (letters_samplerName unit) htype) fun sampler => ?_
  refine .bind (.varying (.texCoord unit)) fun uv => ?_
  refine .bindLocal (.temporary (by decide)) fun color => ?_
  refine .write (.pins rfl (by simp) (by simp)) rfl (by simp) fun _ => ?_
  exact .pure (by simp) rfl

/-- The texels of textures can be read. -/
lemma makes_texels (textures : List (Nat × Texture)) :
    Makes asks [] needs (texels textures) fun ids => readsAll ids := by
  induction textures generalizing needs with
  | nil =>
    rw [texels]
    exact .pure (by simp) rfl
  | cons t textures ih =>
    rw [texels]
    refine .bind (makes_texel t.1 t.2) fun first => ?_
    refine .bind ih fun others => ?_
    exact .pure (by simp) rfl

/-- The product of texels can be read. -/
lemma makes_texelProduct {ids : List NodeId} (hids : readsAll ids ⊆ needs) :
    Makes asks roots needs (texelProduct ids) fun product => readsAll product.toList := by
  rw [texelProduct.eq_def]
  split
  · exact .pure (by simp) rfl
  · exact .pure hids rfl
  next hne _ =>
    refine .bindLocal (.localNamed (.of_mem (by simp [words])) fun _ => by decide) fun product => ?_
    refine .write (.combine (.inr (.inl rfl)) hne) rfl hids fun _ => ?_
    exact .pure (by simp) rfl

/-- The code that computes the alpha mentions a texel only if there is one, and it assigns the alpha
before it reads it. -/
lemma pins_alphaCode (hasTexel isBillboard : Bool) :
    IsPlain (alphaCode hasTexel isBillboard) ∧
      Snippet.pins (alphaCode hasTexel isBillboard) ⊆
        ["alpha", "color"] ++ (if hasTexel then ["texelAlpha"] else []) ∧
      "alpha" ∉ Snippet.exposed (alphaCode hasTexel isBillboard) ∧
      "alpha" ∈ Snippet.assigned (alphaCode hasTexel isBillboard) := by
  cases hasTexel <;> cases isBillboard <;> decide

/-- The alpha of a surface can be read. -/
lemma makes_alpha (isBillboard : Bool) {diffuse : NodeId} {texel : Option NodeId}
    (hneeds : readsAll (diffuse :: texel.toList) ⊆ needs) :
    Makes asks roots needs (alpha isBillboard diffuse texel) fun id => [.reads id] := by
  rw [alpha]
  obtain ⟨hplain, hpins, hassigned⟩ := pins_alphaCode texel.isSome isBillboard
  refine .bindLocal (.temporary (by decide)) fun alpha => ?_
  refine .write (.snippet hplain (List.Subset.trans hpins ?_) (.inl hassigned)) rfl ?_
    fun _ => ?_
  · cases texel <;> simp
  · cases texel <;> simpa using hneeds
  · exact .pure (by simp) rfl

/-! ## The graph -/

/-- The code that multiplies a color with a texture reads the color. -/
lemma pins_textureCode : Snippet.pins "%color.rgb *= %texture.rgb;" = ["color", "texture"] := by
  decide

/-- The surface with a material writes the color of the fragment. -/
lemma makes_surface (roles : Roles) : Makes true [] needs (surface roles) fun _ => [] := by
  rw [surface]
  refine .bind makes_materialUniforms fun material => ?_
  refine .bind (makes_vertexColor (by simp)) fun diffuse => ?_
  refine .bind (makes_lighting roles (by simp)) fun lit => ?_
  refine .bindLocal (.localValued (by decide) (by decide)) fun color => ?_
  refine .amend (.combine (.inl rfl) (by simp)) rfl (by simp) fun _ => ?_
  refine .bind (makes_texels roles.textures) fun texels => ?_
  refine .bind (makes_texelProduct (List.subset_append_left _ _)) fun product => ?_
  extract_lets rest
  have hrest : ∀ needs, .reads color ∈ needs → .reads material.diffuse ∈ needs →
      readsAll texels ⊆ needs → Makes true [] needs (rest ()) fun _ => [] := by
    intro needs hcolor hdiffuse htexels
    have hfirst : readsAll texels.head?.toList ⊆ readsAll texels := by
      cases texels <;> simp
    refine .bind (makes_alpha roles.isBillboard ?_) fun alpha => ?_
    · exact List.cons_subset.2 ⟨hdiffuse, List.Subset.trans hfirst htexels⟩
    refine .bindLocal (.temporary (by decide)) fun premultiplied => ?_
    refine .write (.pins rfl (by simp) (by simp)) rfl (by simp [hcolor]) fun _ => ?_
    refine .bind (.output .fragColor) fun fragColor => ?_
    refine .emit (.pins rfl (by simp) (by simp)) rfl (by simp) (by simp) fun _ => ?_
    exact .pure (by simp) rfl
  cases product with
  | none =>
    -- the color keeps what it has
    refine .close (by simp) (hrest _ (by simp) (by simp) ?_)
    grind
  | some texture =>
    refine .write (.snippet (by decide) (by simp [pins_textureCode]) (.inr (by simp))) rfl (by simp)
      fun _ => hrest _ (by simp) (by simp) ?_
    grind

/-- The graph of a surface is built. -/
lemma makes_build (roles : Roles) : Makes true [] needs (build roles) fun _ => [] := by
  rw [build]
  split
  · refine .bind (makes_surface roles) fun color => ?_
    exact .bind (.programName _) fun name => .pure (by simp) rfl
  · refine .bind makes_plain fun color => ?_
    exact .bind (.programName _) fun name => .pure (by simp) rfl

end FragmentGraph

namespace DepthPass

/-- The graph of a depth pass is built. -/
lemma makes_build (cast : ShadowCast) (name : String) :
    Makes asks [] needs (build cast name) fun _ => [] := by
  have hexponent : ∀ name, letters name = "exponent".toList → HasType .uniform name "float" :=
    fun name hname => ⟨"exponent", by simp [words], hname⟩
  rw [build]
  refine .bind (.output .fragColor) fun color => ?_
  refine .bind (.uniform (hexponent _ (by decide))) fun exponent0 => ?_
  refine .bind (.uniform (hexponent _ (by decide))) fun exponent1 => ?_
  refine .bind (.uniform (.of_mem (by simp [words]))) fun depthRange => ?_
  refine .bind (.varying .viewVertex) fun eye => ?_
  refine .emit (.pins rfl (by simp) (by simp)) rfl (by simp) (by simp) fun _ => ?_
  exact .bind (.programName _) fun name => .pure (by simp) rfl

end DepthPass

/-- The fragment graph of roles is sound, and it has a flow where nothing is open. -/
lemma Roles.sound_fragmentGraph (roles : Roles) :
    roles.fragmentGraph.graph.Sound [] ∧ roles.fragmentGraph.graph.Flow [] [] := by
  have hmakes : Makes true [] [] (roles.cast.elim (FragmentGraph.build roles)
      fun cast => DepthPass.build cast roles.programName) fun _ => [] := by
    cases roles.cast with
    | none => exact FragmentGraph.makes_build roles
    | some cast => exact DepthPass.makes_build cast roles.programName
  have hmade := (hmakes _ [] (Graph.meets_ofStage true [] .fragment)).1
  exact ⟨hmade.sound, hmade.flow⟩

end SceneShading
