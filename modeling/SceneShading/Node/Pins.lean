import SceneShading.Diagnostic
import SceneShading.Node.Basic

/-!
# Required pins

Every kind of operation has pins that must be wired before it can become code. The tables here are
the contract between the builders of graphs and the generators of statements; `Node.validate`
reports the first pin of a node that is missing, inputs before outputs.
-/

namespace SceneShading

/-- A pin of a library function, and whether the function takes a color without its alpha there. -/
structure ColorPin where
  name : String
  isRgb : Bool := false
deriving Repr, DecidableEq, Inhabited

namespace LightModel

/-- The geometry that every light model starts with. -/
def surfacePins : List ColorPin := [⟨"normal", false⟩, ⟨"eyeVector", false⟩]

/-- The material colors of the models with an ambient part. -/
def materialPins : List ColorPin :=
  [⟨"materialambient", true⟩, ⟨"materialdiffuse", true⟩, ⟨"materialspecular", true⟩,
   ⟨"materialshininess", false⟩]

/-- The light colors of the models with an ambient part. -/
def colorPins : List ColorPin :=
  [⟨"lightambient", true⟩, ⟨"lightdiffuse", true⟩, ⟨"lightspecular", true⟩]

/-- The variables that shading a light writes besides its color. -/
def sharedPins : List ColorPin := [⟨"lightEyeDir", false⟩, ⟨"lightNDL", false⟩, ⟨"lighted", false⟩]

/-- The arguments of the shading function of a light model, in order. -/
def pins : LightModel → List ColorPin
  | point =>
    surfacePins ++ materialPins ++ colorPins ++
      [⟨"lightposition", false⟩, ⟨"lightattenuation", false⟩, ⟨"lightmatrix", false⟩,
       ⟨"lightEyePos", false⟩] ++ sharedPins
  | spot =>
    surfacePins ++ materialPins ++ colorPins ++
      [⟨"lightdirection", false⟩, ⟨"lightattenuation", false⟩, ⟨"lightposition", false⟩,
       ⟨"lightspotCutOff", false⟩, ⟨"lightspotBlend", false⟩, ⟨"lightmatrix", false⟩,
       ⟨"lightinvMatrix", false⟩, ⟨"lightEyePos", false⟩] ++ sharedPins
  | sun =>
    surfacePins ++ materialPins ++ colorPins ++
      [⟨"lightposition", false⟩, ⟨"lightmatrix", false⟩] ++ sharedPins
  | hemi =>
    surfacePins ++
      [⟨"materialdiffuse", true⟩, ⟨"materialspecular", true⟩, ⟨"materialshininess", false⟩,
       ⟨"lightdiffuse", true⟩, ⟨"lightground", true⟩, ⟨"lightposition", false⟩,
       ⟨"lightmatrix", false⟩] ++ sharedPins

end LightModel

namespace ColorFunction

/-- The input pins of a function. -/
def inputPins : ColorFunction → List String
  | normalize => ["vec"]
  | srgbToLinear | linearToSrgb => ["color"]
  | frontNormal => ["normal"]
  | encodeRgbm | decodeRgbm => ["color", "range"]

/-- The output pin of a function. -/
def outputPin : ColorFunction → String
  | normalize => "vec"
  | frontNormal => "normal"
  | _ => "color"

end ColorFunction

/-- The most targets that a morph can blend, one per component of its weights. -/
def maxMorphTargets : Nat := 4

/-- The pin of a morph target. -/
def targetPin (i : Nat) : String := "target" ++ toString i

namespace ShadowConfig

/-- The pins that only some shadow algorithms take. -/
def algorithmPins (c : ShadowConfig) : List String :=
  match c.algorithm with
  | .esm => ["shadowexponent0", "shadowexponent1"]
  | .evsm => ["shadowepsilonVSM", "shadowexponent0", "shadowexponent1"]
  | .vsm => ["shadowepsilonVSM"]
  | .none | .pcf => []

/-- The arguments of the function that receives shadows, in order. -/
def receivePins (c : ShadowConfig) : List String :=
  ["lighted", "shadowTexture", "shadowTextureMapSize", "shadowTextureProjectionMatrix",
   "shadowTextureViewMatrix", "shadowTextureDepthRange", "lightNDL", "vertexWorld", "shadowbias"] ++
    c.algorithmPins

/-- The depth of a shadow map is encoded with exponents. -/
def usesExponents (c : ShadowConfig) : Bool := !(c.algorithm = .none || c.algorithm = .pcf)

end ShadowConfig

/-- The pins of a texture read. -/
def texturePins : List String := ["sampler", "uv"]

/-- The pins of a morph that cannot be missing. -/
def morphPins : List String := ["weights", "vertex", targetPin 0]

/-- The pins of skinning. -/
def skinningPins : List String := ["weights", "bonesIndex", "matrixPalette"]

/-- The pins of a billboard. -/
def billboardPins : List String := ["Vertex", "ModelViewMatrix", "ProjectionMatrix"]

/-- The pins of a shadow cast. -/
def castPins : List String := ["exponent0", "exponent1", "shadowDepthRange", "fragEye"]

namespace NodeKind

/-- The input pins that must be wired. -/
def requiredInputs : NodeKind → List String
  | matrixMult _ => ["vec", "matrix"]
  | setAlpha => ["color", "alpha"]
  | preMultAlpha => ["color"]
  | function f => f.inputPins
  | texture _ => texturePins
  | light model => model.pins.map (·.name)
  | morph => morphPins
  | skinning => skinningPins
  | billboard => billboardPins
  | shadowReceive config => config.receivePins
  | shadowCast _ => castPins
  | _ => []

/-- The output pins that must be wired. -/
def requiredOutputs : NodeKind → List String
  | matrixMult _ | billboard => ["vec"]
  | setAlpha | preMultAlpha | texture _ | light _ | shadowCast _ => ["color"]
  | function f => [f.outputPin]
  | morph => ["out"]
  | skinning => ["mat4"]
  | shadowReceive _ => ["float"]
  | _ => []

end NodeKind

namespace Node

/-- The first required input that is not wired. -/
def missingInput? (n : Node) : Option String :=
  n.kind.requiredInputs.find? fun pin => (n.input? pin).isNone

/-- The first required output that is not wired. -/
def missingOutput? (n : Node) : Option String :=
  n.kind.requiredOutputs.find? fun pin => (n.outputs.get? pin).isNone

/-- Every required pin is wired, or the first one that is not. -/
def validate (n : Node) : Except Diagnostic Unit :=
  match n.missingInput?, n.missingOutput? with
  | some pin, _ => .error (.missingInput n.typeName pin)
  | none, some pin => .error (.missingOutput n.typeName pin)
  | none, none => .ok ()

/-- A node is valid exactly when every required pin is wired. -/
theorem validate_eq_ok_iff (n : Node) :
    n.validate = .ok () ↔
      (∀ pin ∈ n.kind.requiredInputs, (n.input? pin).isSome) ∧
        ∀ pin ∈ n.kind.requiredOutputs, (n.outputs.get? pin).isSome := by
  have hi : n.missingInput? = none ↔ ∀ pin ∈ n.kind.requiredInputs, (n.input? pin).isSome := by
    simp [missingInput?, List.find?_eq_none, Option.isSome_iff_ne_none]
  have ho : n.missingOutput? = none ↔
      ∀ pin ∈ n.kind.requiredOutputs, (n.outputs.get? pin).isSome := by
    simp [missingOutput?, List.find?_eq_none, Option.isSome_iff_ne_none]
  rw [← hi, ← ho]
  unfold validate
  split <;> simp_all

/-- The number of morph targets that are wired without a gap. -/
def targetCount (n : Node) : Nat :=
  ((List.range maxMorphTargets).takeWhile fun i => (n.input? (targetPin i)).isSome).length

end Node

end SceneShading
