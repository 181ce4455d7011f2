import Mathlib.Tactic
import SceneShading.Program.Generator

/-!
# Bare attributes

The key of a program spells the structures of attributes and nothing else of them. That is enough if
the program depends on nothing else. To see it, attributes are stripped: a bare attribute is the one
that can be read off the structure, with the defaults of its kind otherwise, and a bare skin has the
length of its bone array written into it, so that bone limits have no say any more. Roles compile
like the bare roles, whatever the bone limits are then (`Context.compileProgram_bare`).

The structures of a request can be read off its parts (`ProgramRequest.compile_congr`), and the
parts off the digits of its key (`KeyPart.digits_injective`), as long as faces are not culled: face
culling and the first texture unit have the same digit.
-/

namespace SceneShading

/-! ## Attributes -/

/-- The light with the parameters of its structure. -/
def Light.bare (l : Light) : Light := { number := l.number, type := l.type, enabled := l.enabled }

/-- The skin with the parameters of its structure; it says how long its array is. -/
def Skinning.bare (limits : BoneLimits) (s : Skinning) : Skinning :=
  { enabled := s.enabled, size := some (s.uniformSize limits) }

/-- The morph with the parameters of its structure. -/
def Morph.bare (m : Morph) : Morph :=
  { enabled := m.enabled, targetCount := m.targetCount, targetNames := m.targetNames }

/-- The receiver with the parameters of its structure. -/
def ShadowReceive.bare (r : ShadowReceive) : ShadowReceive :=
  { light := r.light, enabled := r.enabled, config := r.config }

/-- The texture with the parameters of its structure. -/
def Texture.bare (t : Texture) : Texture := { target := t.target }

/-- The shadow map with the parameters of its structure. -/
def ShadowTexture.bare (t : ShadowTexture) : ShadowTexture := { light := t.light }

/-- The attribute that can be read off a structure. A kind comes with its own parameters only; there
is nothing to read off other pairs. -/
def AttributeStructure.attribute (s : AttributeStructure) : Attribute :=
  match s.key.kind, s.parameters with
  | .cullFace, _ => .cullFace {}
  | .blendFunc, _ => .blendFunc {}
  | .depth, _ => .depth {}
  | .light, .light type enabled => .light { number := s.key.member, type, enabled }
  | .skinning, .skinning size enabled => .skinning { enabled, size := some size }
  | .morph, .morph targetNames targetCount enabled => .morph { enabled, targetCount, targetNames }
  | .shadowReceive, .shadow config enabled =>
    .shadowReceive { light := s.key.member, enabled, config }
  | .shadowCast, .shadow config enabled => .shadowCast { enabled, config }
  | .billboard, .billboard enabled => .billboard { enabled }
  | .texture, .texture target => .texture { target }
  | .shadowTexture, .shadowTexture light => .shadowTexture { light }
  | _, _ => .material {}

namespace Attribute

/-- The attribute with the parameters of its structure. -/
def bare (limits : BoneLimits) (a : Attribute) : Attribute := (a.structureOf limits).attribute

/-- The texture of a bare attribute is the bare texture. -/
lemma texture?_bare (limits : BoneLimits) (a : Attribute) :
    Roles.texture? (a.bare limits) = (Roles.texture? a).map (·.bare) := by
  cases a <;> rfl

/-- The shadow map of a bare attribute is the bare shadow map. -/
lemma shadowMap?_bare (limits : BoneLimits) (a : Attribute) :
    Roles.shadowMap? (a.bare limits) = (Roles.shadowMap? a).map (·.bare) := by
  cases a <;> rfl

end Attribute

/-! ## Roles -/

namespace Roles

/-- The roles with bare attributes. -/
def bare (limits : BoneLimits) (r : Roles) : Roles where
  material := r.material.map fun _ => {}
  lights := r.lights.map (·.bare)
  receivers := r.receivers.map (·.bare)
  cast := r.cast
  skinning := r.skinning.map (·.bare limits)
  morph := r.morph.map (·.bare)
  isBillboard := r.isBillboard
  textures := r.textures.map fun t => (t.1, t.2.bare)
  shadowMaps := r.shadowMaps.map fun t => (t.1, t.2.bare)

/-- One more bare attribute. -/
lemma add_bare (limits : BoneLimits) (r : Roles) (a : Attribute) :
    (r.bare limits).add (a.bare limits) = (r.add a).bare limits := by
  cases a with
  | light l => simp only [add, bare, List.map_append]; rfl
  | shadowReceive s => simp only [add, bare, List.map_append]; rfl
  | shadowCast c =>
    obtain ⟨enabled, config⟩ := c
    cases enabled <;> rfl
  | _ => rfl

/-- The attributes of texture units one after another, with their units. -/
def placed (units : List (List Attribute)) : List (Nat × Attribute) :=
  units.zipIdx.flatMap fun u => u.1.map (u.2, ·)

/-- An attribute comes with the unit that it is in. -/
lemma mem_placed {units : List (List Attribute)} {unit : Nat} {a : Attribute} :
    (unit, a) ∈ placed units ↔ ∃ attributes, units[unit]? = some attributes ∧ a ∈ attributes := by
  simp only [placed, List.mem_flatMap, List.mem_map, Prod.exists, List.mem_zipIdx_iff_getElem?,
    Prod.mk.injEq]
  constructor
  · rintro ⟨attributes, _, hunit, _, ha, rfl, rfl⟩
    exact ⟨attributes, hunit, ha⟩
  · rintro ⟨attributes, hunit, ha⟩
    exact ⟨attributes, unit, hunit, a, ha, rfl, rfl⟩

/-- What the attributes of texture units play is read off them one after another. -/
lemma ofUnits_eq_filterMap {α : Type} (role? : Attribute → Option α)
    (units : List (List Attribute)) :
    ofUnits role? units = (placed units).filterMap fun p => (role? p.2).map (p.1, ·) := by
  rw [ofUnits, placed, List.filterMap_flatMap]
  refine List.flatMap_congr fun u _ => ?_
  rw [List.filterMap_map, List.map_filterMap]
  rfl

/-- The bare roles that attributes play in texture units are those of the bare attributes. -/
lemma map_ofUnits {α : Type} {role? : Attribute → Option α} {strip : α → α} {limits : BoneLimits}
    (hrole : ∀ a : Attribute, role? (a.bare limits) = (role? a).map strip)
    (units : List (List Attribute)) :
    (ofUnits role? units).map (fun t => (t.1, strip t.2)) =
      ((placed units).map fun p => (p.1, p.2.bare limits)).filterMap
        fun p => (role? p.2).map (p.1, ·) := by
  rw [ofUnits_eq_filterMap, List.map_filterMap, List.filterMap_map]
  refine List.filterMap_congr fun p _ => ?_
  rw [Function.comp_apply, hrole, Option.map_map, Option.map_map]
  rfl

/-- The bare roles of attributes are those of the bare attributes. -/
lemma foldl_add_bare (limits : BoneLimits) (attributes : List Attribute) (r : Roles) :
    (attributes.foldl add r).bare limits =
      (attributes.map (·.bare limits)).foldl add (r.bare limits) := by
  induction attributes generalizing r with
  | nil => rfl
  | cons a attributes ih => rw [List.foldl_cons, ih, ← add_bare, List.map_cons, List.foldl_cons]

/-- The bare roles of attributes are decided by the bare attributes outside the texture units and by
those in the units one after another. -/
lemma bare_ofAttributes (limits : BoneLimits) (attributes : List Attribute)
    (units : List (List Attribute)) :
    (ofAttributes attributes units).bare limits =
      let strippedUnits := (placed units).map fun p => (p.1, p.2.bare limits)
      { (attributes.map (·.bare limits)).foldl add {} with
        textures := strippedUnits.filterMap fun p => (texture? p.2).map (p.1, ·)
        shadowMaps := strippedUnits.filterMap fun p => (shadowMap? p.2).map (p.1, ·) } := by
  have hfold : (attributes.foldl add {}).bare limits =
      (attributes.map (·.bare limits)).foldl add {} := foldl_add_bare limits attributes {}
  have htextures := map_ofUnits (Attribute.texture?_bare limits) units
  have hmaps := map_ofUnits (Attribute.shadowMap?_bare limits) units
  dsimp only
  rw [← htextures, ← hmaps, ← hfold]
  rfl

/-! ## Shadows -/

/-- The bare shadow maps are bound to the same units. -/
lemma shadowUnits_bare (limits : BoneLimits) (r : Roles) (number : Nat) :
    (r.bare limits).shadowUnits number = r.shadowUnits number := by
  rw [shadowUnits, bare, List.filter_map, List.map_map, shadowUnits]
  rfl

/-- The bare receiver of a bare light is the bare receiver of the light. -/
lemma shadowOf_bare (limits : BoneLimits) (r : Roles) (l : Light) :
    (r.bare limits).shadowOf l.bare = (r.shadowOf l).map fun s => (s.1.bare, s.2) := by
  have hfind : (r.bare limits).receivers.find? (·.light == l.bare.number) =
      (r.receivers.find? (·.light == l.number)).map (·.bare) := List.find?_map
  rw [shadowOf, hfind, shadowOf]
  cases r.receivers.find? (·.light == l.number) with
  | none => rfl
  | some receiver =>
    simp only [Option.map_some, Option.bind_eq_bind, Option.bind_some]
    change (if ((r.bare limits).shadowUnits l.number).isEmpty then none else
      some (receiver.bare, (r.bare limits).shadowUnits l.number)) = _
    rw [shadowUnits_bare]
    split <;> rfl

/-- Bare roles have the name of the roles. -/
lemma programName_bare (limits : BoneLimits) (r : Roles) :
    (r.bare limits).programName = r.programName := by
  rw [programName, programName, bare, Option.isSome_map]

end Roles

/-! ## Fragment graphs -/

namespace FragmentGraph

/-- Bare lights light a surface like the lights. -/
lemma allLightTerms_bare (limits : BoneLimits) (r : Roles) (material : MaterialUniforms)
    (diffuse : NodeId) (index : Nat) (lights : List Light) :
    allLightTerms (r.bare limits) material diffuse index (lights.map (·.bare)) =
      allLightTerms r material diffuse index lights := by
  induction lights generalizing index with
  | nil => rfl
  | cons light lights ih =>
    have hterms : lightTerms (r.bare limits) material diffuse index light.bare =
        lightTerms r material diffuse index light := by
      rw [lightTerms, Roles.shadowOf_bare, lightTerms]
      cases r.shadowOf light with
      | none => rfl
      | some shadow => rfl
    rw [List.map_cons, allLightTerms, allLightTerms, hterms, ih]

/-- Bare textures are sampled like the textures. -/
lemma texels_bare (textures : List (Nat × Texture)) :
    texels (textures.map fun t => (t.1, t.2.bare)) = texels textures := by
  induction textures with
  | nil => rfl
  | cons t textures ih =>
    obtain ⟨unit, texture⟩ := t
    rw [List.map_cons, texels, texels, ih]
    rfl

/-- Bare roles light a surface like the roles. -/
lemma lighting_bare (limits : BoneLimits) (r : Roles) :
    lighting (r.bare limits) = lighting r := by
  funext material diffuse
  rw [lighting, lighting]
  have hempty : (r.bare limits).lights.isEmpty = r.lights.isEmpty := List.isEmpty_map
  rw [hempty]
  split
  · rfl
  · rw [show (r.bare limits).lights = r.lights.map (·.bare) from rfl, allLightTerms_bare]

/-- Bare roles make the surface of the roles. -/
lemma build_bare (limits : BoneLimits) (r : Roles) : build (r.bare limits) = build r := by
  have hsurface : surface (r.bare limits) = surface r := by
    rw [surface, lighting_bare, surface]
    rw [show (r.bare limits).textures = r.textures.map (fun t => (t.1, t.2.bare)) from rfl,
      texels_bare]
    rfl
  have hmaterial : (r.bare limits).material.isSome = r.material.isSome := Option.isSome_map
  rw [build, hsurface, hmaterial, Roles.programName_bare, build]

end FragmentGraph

/-! ## Vertex graphs -/

namespace VertexGraph

/-- Bare roles move an attribute of the geometry like the roles, whatever the bone limits. -/
lemma skinned_bare (limits limits' : BoneLimits) (r : Roles) (c : Channel) :
    skinned (r.bare limits) limits' c = skinned r limits c := by
  have hmorphed : morphed (r.bare limits) c = morphed r c := by
    rw [morphed, morphed, hasTargets, hasTargets, blendedTargets, blendedTargets, Roles.bare]
    cases r.morph <;> rfl
  rw [skinned, skinned, hmorphed, Roles.bare]
  cases r.skinning <;> rfl

variable (limits limits' : BoneLimits) (r : Roles)

/-- Bare roles deform positions like the roles. -/
lemma localVertex_bare : localVertex (r.bare limits) limits' = localVertex r limits :=
  skinned_bare limits limits' r vertexChannel

/-- Bare roles deform normals like the roles. -/
lemma localNormal_bare : localNormal (r.bare limits) limits' = localNormal r limits := by
  rw [localNormal, skinned_bare, localNormal]

/-- Bare roles deform tangents like the roles. -/
lemma localTangent_bare : localTangent (r.bare limits) limits' = localTangent r limits := by
  rw [localTangent, skinned_bare, localTangent]

/-- Bare roles feed varyings like the roles. -/
lemma varyingSource_bare : varyingSource (r.bare limits) limits' = varyingSource r limits := by
  funext name
  unfold varyingSource viewVertex
  simp only [localVertex_bare, localNormal_bare, localTangent_bare]

/-- Bare roles write varyings like the roles. -/
lemma writeVaryings_bare (varyings : List (String × NodeId)) :
    writeVaryings (r.bare limits) limits' varyings = writeVaryings r limits varyings := by
  induction varyings with
  | nil => rfl
  | cons v varyings ih =>
    obtain ⟨name, id⟩ := v
    rw [writeVaryings, writeVaryings, ih, writeVarying, varyingSource_bare, writeVarying]

/-- Bare roles make the vertex stage of the roles, whatever the bone limits. -/
lemma build_bare (varyings : List (String × NodeId)) :
    build (r.bare limits) limits' varyings = build r limits varyings := by
  have hposition : position (r.bare limits) limits' = position r limits := by
    rw [position, position, viewVertex, localVertex_bare, viewVertex]
    rfl
  rw [build, hposition, writeVaryings_bare, Roles.programName_bare, build]

end VertexGraph

/-! ## Programs -/

/-- The context of the same renderer with other bone limits. -/
def Context.withBoneLimits (ctx : Context) (limits : BoneLimits) : Context :=
  { ctx with boneLimits := limits }

/-- **Bare roles compile like the roles**, whatever the bone limits are by then. -/
theorem Context.compileProgram_bare (ctx : Context) (limits : BoneLimits) (r : Roles)
    (d : Option Description) :
    (ctx.withBoneLimits limits).compileProgram (r.bare ctx.boneLimits) d =
      ctx.compileProgram r d := by
  have hfragment : (r.bare ctx.boneLimits).fragmentGraph = r.fragmentGraph := by
    rw [Roles.fragmentGraph, FragmentGraph.build_bare, Roles.programName_bare, Roles.fragmentGraph]
    rfl
  have hvertex : ∀ fragment : Graph,
      (r.bare ctx.boneLimits).vertexGraph limits fragment =
        r.vertexGraph ctx.boneLimits fragment := fun fragment => by
    rw [Roles.vertexGraph, VertexGraph.build_bare, Roles.vertexGraph]
  rw [compileProgram, hfragment, compileProgram, compileFor, compileFor]
  simp only [withBoneLimits, hvertex]
  rfl

/-! ## Reading a key -/

namespace KeyPart

/-- The part is not one of face culling, inside the texture units or outside. -/
def IsShaped : KeyPart → Prop
  | .attribute s | .unitAttribute _ s => s.key ≠ ⟨.cullFace, 0⟩
  | .description _ => True

/-- The parts that digits spell: a number belongs to the structure behind it. -/
def read : List KeyDigit → List KeyPart
  | .number unit :: .shape s :: digits => .unitAttribute unit s :: read digits
  | .shape s :: digits => .attribute s :: read digits
  | .description d :: digits => .description d :: read digits
  | _ => []

/-- The digit of a structure other than that of face culling is the structure. -/
lemma ofStructure_eq_shape {s : AttributeStructure} (h : s.key ≠ ⟨.cullFace, 0⟩) :
    KeyDigit.ofStructure s = .shape s := if_neg h

/-- Without face culling, parts can be read off their digits. -/
lemma read_digits {parts : List KeyPart} (h : ∀ p ∈ parts, p.IsShaped) :
    read (parts.flatMap digits) = parts := by
  induction parts with
  | nil => rfl
  | cons p parts ih =>
    obtain ⟨hp, hparts⟩ := List.forall_mem_cons.1 h
    rw [List.flatMap_cons]
    cases p with
    | «attribute» s =>
      rw [digits, ofStructure_eq_shape hp, List.singleton_append, read, ih hparts]
    | unitAttribute unit s =>
      rw [digits, ofStructure_eq_shape hp, List.cons_append, List.singleton_append, read,
        ih hparts]
    | description d => rw [digits, List.singleton_append, read, ih hparts]

/-- Without face culling, parts are told apart by their digits. -/
lemma digits_injective {parts parts' : List KeyPart} (h : ∀ p ∈ parts, p.IsShaped)
    (h' : ∀ p ∈ parts', p.IsShaped) (hdigits : parts.flatMap digits = parts'.flatMap digits) :
    parts = parts' := by
  rw [← read_digits h, hdigits, read_digits h']

/-- The bare attribute of a part outside the texture units. -/
def outside? : KeyPart → Option Attribute
  | .attribute s => some s.attribute
  | .unitAttribute .. | .description _ => none

/-- The bare attribute of a part in a texture unit, with the unit. -/
def inside? : KeyPart → Option (Nat × Attribute)
  | .unitAttribute unit s => some (unit, s.attribute)
  | .attribute _ | .description _ => none

/-- The description of a part. -/
def description? : KeyPart → Option Description
  | .description d => some d
  | .attribute _ | .unitAttribute .. => none

end KeyPart

namespace ProgramRequest

/-- The parts of the attributes in texture units, one after another. -/
lemma unitParts_eq_map (limits : BoneLimits) (units : List (List Attribute)) :
    unitParts limits units =
      (Roles.placed units).map fun p => .unitAttribute p.1 (p.2.structureOf limits) := by
  rw [unitParts, Roles.placed, List.map_flatMap]
  refine List.flatMap_congr fun u _ => ?_
  rw [List.map_map]
  rfl

/-- What is read off the parts of a request is read off its attributes, off those in texture units
and off its description. -/
lemma filterMap_parts {β : Type} (read? : KeyPart → Option β) (limits : BoneLimits)
    (r : ProgramRequest) :
    (r.parts limits).filterMap read? =
      r.attributes.filterMap (fun a => read? (.attribute (a.structureOf limits))) ++
        (Roles.placed r.units).filterMap
          (fun p => read? (.unitAttribute p.1 (p.2.structureOf limits))) ++
        r.description.toList.filterMap fun d => read? (.description d) := by
  rw [parts, unitParts_eq_map, List.filterMap_append, List.filterMap_append, List.filterMap_map,
    List.filterMap_map, List.filterMap_map]
  rfl

/-- The bare attributes of a request and its description can be read off its parts. -/
lemma of_parts_eq {limits limits' : BoneLimits} {r r' : ProgramRequest}
    (h : r.parts limits = r'.parts limits') :
    r.attributes.map (·.bare limits) = r'.attributes.map (·.bare limits') ∧
      (Roles.placed r.units).map (fun p => (p.1, p.2.bare limits)) =
        (Roles.placed r'.units).map (fun p => (p.1, p.2.bare limits')) ∧
      r.description = r'.description := by
  have hread : ∀ {β : Type} (read? : KeyPart → Option β),
      (r.parts limits).filterMap read? = (r'.parts limits').filterMap read? :=
    fun read? => congrArg (List.filterMap read?) h
  refine ⟨?_, ?_, ?_⟩
  · simpa [filterMap_parts, KeyPart.outside?, Attribute.bare] using hread KeyPart.outside?
  · simpa [filterMap_parts, KeyPart.inside?, Attribute.bare] using hread KeyPart.inside?
  · have hdescription := hread KeyPart.description?
    simp only [filterMap_parts, KeyPart.description?] at hdescription
    cases hd : r.description <;> cases hd' : r'.description <;> simp_all

/-- Requests with the same parts strip to the same roles. -/
lemma bare_roles_eq {limits limits' : BoneLimits} {r r' : ProgramRequest}
    (h : r.parts limits = r'.parts limits') : r.roles.bare limits = r'.roles.bare limits' := by
  obtain ⟨hattributes, hunits, -⟩ := of_parts_eq h
  rw [roles, Roles.bare_ofAttributes, hattributes, hunits, roles, Roles.bare_ofAttributes]

/-- **The parts of a request decide its program.** Requests with the same parts under two bone
limits compile to the same program. -/
theorem compile_congr {ctx : Context} {limits : BoneLimits} {r r' : ProgramRequest}
    (h : r.parts limits = r'.parts ctx.boneLimits) :
    (ctx.withBoneLimits limits).compileProgram r.roles r.description =
      ctx.compileProgram r'.roles r'.description := by
  obtain ⟨-, -, hdescription⟩ := of_parts_eq h
  have hbare := (ctx.withBoneLimits limits).compileProgram_bare ctx.boneLimits r.roles r.description
  rw [← hbare, ← ctx.compileProgram_bare ctx.boneLimits r'.roles r'.description, ← bare_roles_eq h,
    hdescription]
  rfl

end ProgramRequest

end SceneShading
