import SceneShading.Codegen.Snippet
import SceneShading.Codegen.Statement
import SceneShading.Node.Pins

/-!
# From nodes to statements

The statement of a node, if it has one: variables, built-in outputs and definitions have none.
Outputs are resolved before inputs, products apart, and the first pin that does not resolve is the
problem that is reported.
-/

namespace SceneShading

namespace Graph

/-- The call of a library function, with a note on the pins of the node if one is wanted. -/
def callOf (g : Graph) (n : Node) (debug : Bool) (function : String) (target : Argument)
    (args : List Argument) : Statement :=
  .call function target args <|
    if debug then
      some {
        outputs := n.outputs.targets.map g.operand?
        inputs := (pinnedInputs n).map fun e => (g.resolve n.typeName e.2 e.1).toOption }
    else none

/-- The combination of all inputs by an operator. -/
def combination (g : Graph) (n : Node) (operator : String) : Except Diagnostic Statement := do
  let target ← g.firstOutput n
  match ← g.inputs n with
  | first :: rest => return .combine operator target first rest
  | [] => .error (.missingInput n.typeName "0")

/-- The product of a matrix and a vector. -/
def productOf (g : Graph) (n : Node) (m : MatrixMult) : Except Diagnostic Statement := do
  let vec ← g.input n "vec"
  let matrix ← g.input n "matrix"
  let target ← g.output n "vec"
  return .product m target vec matrix

/-- A part of a snippet with its pin resolved. -/
def pieceOf (g : Graph) (n : Node) : Snippet.Part → Except Diagnostic Piece
  | .text chars => .ok (.text (String.ofList chars))
  | .pin name =>
    let pin := String.ofList name
    match g.pin? n pin with
    | some o => .ok (.pin pin o)
    | none => .error (.missingInput n.typeName pin)

/-- The snippet with its pins resolved; the first pin that is not wired is the problem. -/
def snippetOf (g : Graph) (n : Node) (code : String) : Except Diagnostic Statement := do
  return .snippet (← (Snippet.parts code.toList).mapM (g.pieceOf n))

/-- A color with another alpha. -/
def alphaOf (g : Graph) (n : Node) : Except Diagnostic Statement := do
  let target ← g.output n "color"
  let color ← g.input n "color"
  let alpha ← g.input n "alpha"
  return .setAlpha target color alpha

/-- A color times an alpha, which is its own unless another one is wired. -/
def premultiplyOf (g : Graph) (n : Node) : Except Diagnostic Statement := do
  let target ← g.output n "color"
  let color ← g.input n "color"
  let alpha ← g.optionalInput n "alpha"
  return .premultiply target color (alpha.getD color)

/-- A conversion between color spaces. Where the types differ, only the color without its alpha is
converted. -/
def conversionOf (g : Graph) (n : Node) (debug : Bool) (function : String) :
    Except Diagnostic Statement := do
  let target ← g.output n "color"
  let color ← g.input n "color"
  let swizzle := if target.type = color.type then "" else ".rgb"
  return g.callOf n debug function ⟨target, swizzle⟩ [⟨color, swizzle⟩]

/-- A function on a color and a range. -/
def rangedOf (g : Graph) (n : Node) (debug : Bool) (function : String)
    (argument : Operand → Argument) : Except Diagnostic Statement := do
  let target ← g.output n "color"
  let color ← g.input n "color"
  let range ← g.input n "range"
  return g.callOf n debug function (.whole target) [argument color, .whole range]

/-- A function on colors or normals. -/
def functionOf (g : Graph) (n : Node) (debug : Bool) : ColorFunction → Except Diagnostic Statement
  | .normalize => do
    let target ← g.output n "vec"
    let vec ← g.input n "vec"
    return g.callOf n debug "normalize" (.whole target) [.whole vec]
  | .srgbToLinear => g.conversionOf n debug "sRGBToLinear"
  | .linearToSrgb => g.conversionOf n debug "linearTosRGB"
  | .frontNormal => do
    let target ← g.output n "normal"
    let normal ← g.input n "normal"
    return .frontNormal target normal
  | .encodeRgbm => g.rangedOf n debug "encodeRGBM" .rgb
  | .decodeRgbm => g.rangedOf n debug "decodeRGBM" .whole

/-- A texture read. -/
def textureOf (g : Graph) (n : Node) (debug : Bool) (fetch : TextureFetch) :
    Except Diagnostic Statement := do
  let target ← g.output n "color"
  let sampler ← g.input n "sampler"
  let uv ← g.input n "uv"
  return g.callOf n debug fetch.function (.whole target) [.whole sampler, ⟨uv, ".xy"⟩]

/-- The operands of pins, as whole arguments. -/
def wholeInputs (g : Graph) (n : Node) (pins : List String) : Except Diagnostic (List Argument) :=
  pins.mapM fun pin => Argument.whole <$> g.input n pin

/-- The shading of a surface by a light. -/
def lightOf (g : Graph) (n : Node) (debug : Bool) (model : LightModel) :
    Except Diagnostic Statement := do
  let target ← g.output n "color"
  let args ← model.pins.mapM fun pin =>
    (fun o => if pin.isRgb then Argument.rgb o else .whole o) <$> g.input n pin.name
  return g.callOf n debug model.function (.whole target) args

/-- The blending of morph targets. -/
def morphOf (g : Graph) (n : Node) (debug : Bool) : Except Diagnostic Statement := do
  let target ← g.output n "out"
  let weights ← g.input n "weights"
  let vertex ← g.input n "vertex"
  let targets ← (List.range n.targetCount).mapM fun i => Argument.rgb <$> g.input n (targetPin i)
  return g.callOf n debug "morphTransform" (.whole target)
    (.whole weights :: .rgb vertex :: targets)

/-- The bone matrix of a vertex. The palette is wired only to be declared. -/
def skinningOf (g : Graph) (n : Node) (debug : Bool) : Except Diagnostic Statement := do
  let target ← g.output n "mat4"
  let weights ← g.input n "weights"
  let bones ← g.input n "bonesIndex"
  let _ ← g.input n "matrixPalette"
  return g.callOf n debug "skeletalTransform" (.whole target) [.whole weights, .whole bones]

/-- The position of a billboard. -/
def billboardOf (g : Graph) (n : Node) (debug : Bool) : Except Diagnostic Statement := do
  let target ← g.output n "vec"
  let args ← g.wholeInputs n billboardPins
  return g.callOf n debug "billboard" (.whole target) args

/-- The shadow that a surface receives. -/
def receiveOf (g : Graph) (n : Node) (debug : Bool) (config : ShadowConfig) :
    Except Diagnostic Statement := do
  let target ← g.output n "float"
  let args ← g.wholeInputs n config.receivePins
  return g.callOf n debug "computeShadow" (.whole target) args

/-- The depth that a surface leaves in a shadow map. -/
def castOf (g : Graph) (n : Node) (debug : Bool) (config : ShadowConfig) :
    Except Diagnostic Statement := do
  let target ← g.output n "color"
  let args ← g.wholeInputs n <|
    ["fragEye", "shadowDepthRange"] ++
      if config.usesExponents then ["exponent0", "exponent1"] else []
  return g.callOf n debug "computeShadowDepth" (.whole target) args

/-- The statement of a node, if it has one. -/
def statement (g : Graph) (debug : Bool) (n : Node) : Except Diagnostic (Option Statement) :=
  match n.kind with
  | .var _ | .output _ | .define .. => .ok none
  | .add | .setFromNode => some <$> g.combination n "+"
  | .mult => some <$> g.combination n "*"
  | .matrixMult m => some <$> g.productOf n m
  | .inlineCode code => some <$> g.snippetOf n code
  | .setAlpha => some <$> g.alphaOf n
  | .preMultAlpha => some <$> g.premultiplyOf n
  | .function f => some <$> g.functionOf n debug f
  | .texture fetch => some <$> g.textureOf n debug fetch
  | .light model => some <$> g.lightOf n debug model
  | .morph => some <$> g.morphOf n debug
  | .skinning => some <$> g.skinningOf n debug
  | .billboard => some <$> g.billboardOf n debug
  | .shadowReceive config => some <$> g.receiveOf n debug config
  | .shadowCast config => some <$> g.castOf n debug config

/-- What a failed statement leaves in the journal: a snippet names its pin that is not wired. -/
def statementNotices (n : Node) : Except Diagnostic (Option Statement) → List Notice
  | .error (.missingInput _ pin) =>
    match n.kind with
    | .inlineCode code => [.unboundPin pin code]
    | _ => []
  | _ => []

end Graph

end SceneShading
