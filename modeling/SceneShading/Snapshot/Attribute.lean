import SceneShading.Attribute.Basic
import SceneShading.Json.Reader
import SceneShading.Snapshot.Basic

/-!
# Snapshots of attributes

An attribute is described by its kind and by the parameters that differ from those it is made with.
Reading a skin with a palette shows the palette to the bone limits.
-/

namespace SceneShading

namespace Json

/-- The number of a member. -/
def scalarMember (j : Json) (name : String) (default : Binary32) : Binary32 :=
  (j.member? name).elim default .ofSnapshot

/-- The vector of a member. -/
def vec4Member (j : Json) (name : String) (default : Vec4 Binary32) : Vec4 Binary32 :=
  (j.member? name).elim default .ofSnapshot

/-- The matrix of a member. -/
def mat4Member (j : Json) (name : String) (default : Mat4 Binary32) : Mat4 Binary32 :=
  (j.member? name).elim default .ofSnapshot

end Json

namespace ShadowConfig

/-- A configuration in JSON text. -/
def parse (text : String) : Option ShadowConfig := (Json.parse text).bind ofJson

/-- A configuration given as a value or as JSON text. -/
def ofSnapshot : Json → ShadowConfig
  | .text (some s) => (parse s).getD {}
  | j => (ofJson j).getD {}

/-- A configuration as JSON. -/
def snapshot (c : ShadowConfig) : Json :=
  .ofMembers [("algorithm", .ofString c.algorithm.name), ("kernel", .ofString c.kernel.name),
    ("fake_pcf", .bool c.fakePcf), ("rotate_offset", .bool c.rotateOffset),
    ("precision", .ofString c.precision.name)]

end ShadowConfig

namespace ShadowReceive

/-- A receiver made for a light. -/
def ofSnapshot (j : Json) : ShadowReceive :=
  let r : ShadowReceive := { light := (j.natMember? "light").getD 0 }
  { r with
    enabled := j.boolMember "enabled" r.enabled
    config := (j.member? "config").elim r.config .ofSnapshot
    bias := j.scalarMember "bias" r.bias
    exponent0 := j.scalarMember "exponent0" r.exponent0
    exponent1 := j.scalarMember "exponent1" r.exponent1
    epsilonVsm := j.scalarMember "epsilon_vsm" r.epsilonVsm }

end ShadowReceive

namespace ShadowCast

/-- A cast made for a receiver, or from a configuration. -/
def ofSnapshot (j : Json) : ShadowCast :=
  let c : ShadowCast := match j.member? "receiver", j.member? "config" with
    | some r, _ => .forReceiver (.ofSnapshot r)
    | none, some c => .ofConfig (.ofSnapshot c)
    | none, none => {}
  { c with enabled := j.boolMember "enabled" c.enabled }

end ShadowCast

namespace Light

/-- A light after its models were chosen one after another. -/
def ofSnapshot (j : Json) : Light :=
  let models := (j.member "types").items ++ (j.member? "type").toList
  let l : Light := models.foldl
    (fun l t => l.withType ((t.asText.bind LightType.ofName?).getD .directional))
    { number := (j.natMember? "number").getD 0 }
  { l with
    enabled := j.boolMember "enabled" l.enabled
    ambient := j.vec4Member "ambient" l.ambient
    diffuse := j.vec4Member "diffuse" l.diffuse
    specular := j.vec4Member "specular" l.specular
    position := j.vec4Member "position" l.position
    attenuation := j.vec4Member "attenuation" l.attenuation
    ground := j.vec4Member "ground" l.ground
    direction := (j.member? "direction").elim l.direction .ofSnapshot
    spotCutoff := j.scalarMember "spot_cutoff" l.spotCutoff
    spotBlend := j.scalarMember "spot_blend" l.spotBlend
    matrix := j.mat4Member "matrix" l.matrix }

end Light

namespace Skinning

/-- A skin, with a palette given by its bones or by its length, and the limits that have seen it. -/
def ofSnapshot (j : Json) (limits : BoneLimits) : Skinning × BoneLimits :=
  let s : Skinning := { enabled := true, size := j.natMember? "size" }
  let palette := match j.member? "palette", j.natMember? "palette_len" with
    | some p, _ => some (p.items.map Vec4.ofSnapshot)
    | none, some n => some (List.replicate n Vec4.zero)
    | none, none => none
  let (s, limits) := palette.elim (s, limits) (s.withPalette · limits)
  ({ s with enabled := j.boolMember "enabled" s.enabled }, limits)

end Skinning

namespace Morph

/-- A morphed surface; names under `raw_names` are kept in the order given. -/
def ofSnapshot (j : Json) : Morph :=
  let m : Morph := { enabled := true, targetCount := (j.natMember? "target_count").getD 0 }
  let m := (j.member? "target_names").elim m (m.withTargetNames ·.texts)
  let m := (j.member? "raw_names").elim m fun ns => { m with targetNames := ns.texts }
  { m with
    weights := j.vec4Member "weights" m.weights
    enabled := j.boolMember "enabled" m.enabled }

end Morph

namespace ShadowTexture

/-- A shadow map of a light, with its size in texels. -/
def ofSnapshot (j : Json) : ShadowTexture :=
  let t : ShadowTexture := { light := (j.natMember? "light").getD 0 }
  let t := match (j.member "size").items with
    | [w, h] => t.withTextureSize w.intOrZero.toNat h.intOrZero.toNat
    | _ => t
  { t with
    view := j.mat4Member "view" t.view
    projection := j.mat4Member "projection" t.projection
    depthRange := j.vec4Member "depth_range" t.depthRange }

end ShadowTexture

namespace Attribute

/-- An attribute that is no skin. -/
def ofPlainSnapshot (j : Json) : Kind → Attribute
  | .cullFace => .cullFace ⟨j.choiceMember "mode" CullMode.ofName? .back⟩
  | .blendFunc =>
    let b : BlendFunc := if j.boolMember "premultiplied" false then .premultiplied else {}
    .blendFunc ⟨j.choiceMember "src" BlendFactor.ofName? b.src,
      j.choiceMember "dst" BlendFactor.ofName? b.dst⟩
  | .depth =>
    let d : Depth := {}
    .depth ⟨j.choiceMember "func" DepthFunc.ofName? d.func, j.boolMember "write_mask" d.writeMask,
      j.scalarMember "near" d.near, j.scalarMember "far" d.far⟩
  | .material =>
    let m : Material := {}
    .material ⟨j.vec4Member "ambient" m.ambient, j.vec4Member "diffuse" m.diffuse,
      j.vec4Member "specular" m.specular, j.vec4Member "emission" m.emission,
      j.scalarMember "shininess" m.shininess⟩
  | .light => .light (.ofSnapshot j)
  | .skinning => .skinning {}
  | .morph => .morph (.ofSnapshot j)
  | .shadowReceive => .shadowReceive (.ofSnapshot j)
  | .shadowCast => .shadowCast (.ofSnapshot j)
  | .billboard => .billboard ⟨j.boolMember "enabled" true⟩
  | .texture =>
    let t : Texture := (j.textMember? "name").elim {} fun name =>
      ⟨if j.boolMember "cube" false then .cubeMap else .texture2D, some name⟩
    .texture { t with target := j.choiceMember "target" TextureTarget.ofName? t.target }
  | .shadowTexture => .shadowTexture (.ofSnapshot j)

/-- The attribute of a description, and the bone limits that have seen it. -/
def ofSnapshot (j : Json) (limits : BoneLimits) : Attribute × BoneLimits :=
  match j.choiceMember "kind" Kind.ofName? .cullFace with
  | .skinning =>
    let (s, limits) := Skinning.ofSnapshot j limits
    (.skinning s, limits)
  | kind => (ofPlainSnapshot j kind, limits)

/-- The attributes of a list of descriptions. -/
def ofSnapshots (js : List Json) (limits : BoneLimits) : List Attribute × BoneLimits :=
  js.foldl (fun (attributes, limits) j =>
    let (a, limits) := ofSnapshot j limits
    (attributes ++ [a], limits)) ([], limits)

/-- The attributes of texture units, unit after unit. -/
def ofUnitSnapshots (js : List Json) (limits : BoneLimits) : List (List Attribute) × BoneLimits :=
  js.foldl (fun (units, limits) j =>
    let (attributes, limits) := ofSnapshots j.items limits
    (units ++ [attributes], limits)) ([], limits)

/-- The parameters of an attribute. -/
def parameterMembers : Attribute → List (String × Json)
  | .cullFace c => [("mode", .ofString c.mode.name)]
  | .blendFunc b => [("src", .ofString b.src.name), ("dst", .ofString b.dst.name)]
  | .depth d =>
    [("func", .ofString d.func.name), ("write_mask", .bool d.writeMask),
     ("near", d.near.snapshot), ("far", d.far.snapshot)]
  | .material m =>
    [("ambient", m.ambient.snapshot), ("diffuse", m.diffuse.snapshot),
     ("specular", m.specular.snapshot), ("emission", m.emission.snapshot),
     ("shininess", m.shininess.snapshot)]
  | .light l =>
    [("number", .ofNat l.number), ("type", .ofString l.type.name), ("enabled", .bool l.enabled),
     ("ambient", l.ambient.snapshot), ("diffuse", l.diffuse.snapshot),
     ("specular", l.specular.snapshot), ("position", l.position.snapshot),
     ("direction", l.direction.snapshot), ("spot_cutoff", l.spotCutoff.snapshot),
     ("spot_blend", l.spotBlend.snapshot), ("attenuation", l.attenuation.snapshot),
     ("ground", l.ground.snapshot), ("matrix", l.matrix.snapshot)]
  | .skinning s =>
    [("size", .ofOption .ofNat s.size), ("enabled", .bool s.enabled),
     ("palette_len", .ofNat s.palette.length)]
  | .morph m =>
    [("enabled", .bool m.enabled), ("target_count", .ofNat m.targetCount),
     ("target_names", .ofStrings m.targetNames), ("weights", m.weights.snapshot)]
  | .shadowReceive r =>
    [("light", .ofNat r.light), ("enabled", .bool r.enabled), ("config", r.config.snapshot),
     ("bias", r.bias.snapshot), ("exponent0", r.exponent0.snapshot),
     ("exponent1", r.exponent1.snapshot), ("epsilon_vsm", r.epsilonVsm.snapshot)]
  | .shadowCast c => [("enabled", .bool c.enabled), ("config", c.config.snapshot)]
  | .billboard b => [("enabled", .bool b.enabled)]
  | .texture t => [("target", .ofString t.target.name), ("name", .ofOption .ofString t.name)]
  | .shadowTexture t =>
    [("light", .ofNat t.light), ("view", t.view.snapshot), ("projection", t.projection.snapshot),
     ("depth_range", t.depthRange.snapshot), ("map_size", t.mapSize.snapshot)]

/-- The parameters of an attribute under the name of its kind. -/
def snapshot (a : Attribute) : Json :=
  .ofMembers [(a.kind.name, .ofMembers a.parameterMembers)]

end Attribute

namespace AttributeKey

/-- A key; the member is zero by default. -/
def ofSnapshot (j : Json) : AttributeKey :=
  ⟨j.choiceMember "kind" Kind.ofName? .cullFace, (j.natMember? "member").getD 0⟩

/-- The kind and the member of a key. -/
def snapshot (k : AttributeKey) : Json := .array [.ofString k.kind.name, .ofNat k.member]

end AttributeKey

end SceneShading
