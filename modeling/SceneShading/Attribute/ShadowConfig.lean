import SceneShading.Json.Decode

/-!
# Shadow filtering

How a shadow map is filtered: the algorithm, its kernel, two switches and the texel format. A
configuration selects code of the shader library through definition lines and an extension.
-/

namespace SceneShading

/-- The shadow algorithms. -/
inductive ShadowAlgorithm where
  | none
  | pcf
  | esm
  | vsm
  | evsm
deriving Repr, DecidableEq, Inhabited

namespace ShadowAlgorithm

/-- Every algorithm. -/
def all : List ShadowAlgorithm := [none, pcf, esm, vsm, evsm]

/-- The name of an algorithm. -/
def name : ShadowAlgorithm → String
  | none => "NONE"
  | pcf => "PCF"
  | esm => "ESM"
  | vsm => "VSM"
  | evsm => "EVSM"

/-- The algorithm of a name. -/
def ofName? (s : String) : Option ShadowAlgorithm := all.find? (·.name == s)

end ShadowAlgorithm

/-- The kernels of percentage closer filtering. -/
inductive PcfKernel where
  | poisson4
  | poisson8
  | poisson16
  | poisson25
  | poisson32
  | band1
  | band4
  | band9
  | band16
  | tap1
  | tap4
  | tap9
  | tap16
deriving Repr, DecidableEq, Inhabited

namespace PcfKernel

/-- Every kernel. -/
def all : List PcfKernel :=
  [poisson4, poisson8, poisson16, poisson25, poisson32, band1, band4, band9, band16, tap1, tap4,
   tap9, tap16]

/-- The name of a kernel, with the number of its texture fetches. -/
def name : PcfKernel → String
  | poisson4 => "4Poisson(16texFetch)"
  | poisson8 => "8Poisson(32texFetch)"
  | poisson16 => "16Poisson(64texFetch)"
  | poisson25 => "25Poisson(100texFetch)"
  | poisson32 => "32Poisson(128texFetch)"
  | band1 => "1Band(1texFetch)"
  | band4 => "4Band(4texFetch)"
  | band9 => "9Band(9texFetch)"
  | band16 => "16Band(16texFetch)"
  | tap1 => "1Tap(4texFetch)"
  | tap4 => "4Tap(16texFetch)"
  | tap9 => "9Tap(36texFetch)"
  | tap16 => "16Tap(64texFetch)"

/-- The kernel of a name. -/
def ofName? (s : String) : Option PcfKernel := all.find? (·.name == s)

/-- The kernel of a name; an unknown name means a single tap. -/
def ofName (s : String) : PcfKernel := (ofName? s).getD tap1

/-- The library code that the kernel selects: the family, and the size within it. -/
def selectors : PcfKernel → List String
  | poisson4 => ["_POISSON_PCF", "_PCFx4"]
  | poisson8 => ["_POISSON_PCF", "_PCFx9"]
  | poisson16 => ["_POISSON_PCF", "_PCFx16"]
  | poisson25 => ["_POISSON_PCF", "_PCFx25"]
  | poisson32 => ["_POISSON_PCF", "_PCFx32"]
  | band1 => ["_NONE", "_PCFx1"]
  | band4 => ["_BAND_PCF", "_PCFx4"]
  | band9 => ["_BAND_PCF", "_PCFx9"]
  | band16 => ["_BAND_PCF", "_PCFx16"]
  | tap1 => ["_TAP_PCF", "_PCFx1"]
  | tap4 => ["_TAP_PCF", "_PCFx4"]
  | tap9 => ["_TAP_PCF", "_PCFx9"]
  | tap16 => ["_TAP_PCF", "_PCFx25"]

end PcfKernel

/-- The texel formats of shadow maps. -/
inductive ShadowPrecision where
  | unsignedByte
  | halfFloat
  | halfFloatLinear
  | float
  | floatLinear
deriving Repr, DecidableEq, Inhabited

namespace ShadowPrecision

/-- Every format. -/
def all : List ShadowPrecision := [unsignedByte, halfFloat, halfFloatLinear, float, floatLinear]

/-- The name of a format. -/
def name : ShadowPrecision → String
  | unsignedByte => "UNSIGNED_BYTE"
  | halfFloat => "HALF_FLOAT"
  | halfFloatLinear => "HALF_FLOAT_LINEAR"
  | float => "FLOAT"
  | floatLinear => "FLOAT_LINEAR"

/-- The format of a name. -/
def ofName? (s : String) : Option ShadowPrecision := all.find? (·.name == s)

/-- The format holds floating point numbers. -/
def isFloat : ShadowPrecision → Bool
  | unsignedByte => false
  | _ => true

/-- The format holds floating point numbers that the device can interpolate. -/
def isLinearFloat : ShadowPrecision → Bool
  | halfFloatLinear | floatLinear => true
  | _ => false

end ShadowPrecision

/-- The parameters of shadow filtering that select code. -/
structure ShadowConfig where
  algorithm : ShadowAlgorithm := .none
  kernel : PcfKernel := .tap1
  fakePcf : Bool := true
  rotateOffset : Bool := false
  precision : ShadowPrecision := .unsignedByte
deriving Repr, DecidableEq, Inhabited

namespace ShadowConfig

/-- The names defined for the algorithm. -/
def algorithmSelectors (c : ShadowConfig) : List String :=
  match c.algorithm with
  | .none => ["_NONE"]
  | .esm => ["_ESM"]
  | .vsm => ["_VSM"]
  | .evsm => ["_EVSM"]
  | .pcf => ["_PCF"] ++ (if c.fakePcf then ["_FAKE_PCF 1"] else []) ++ c.kernel.selectors

/-- The names defined for the configuration. -/
def selectors (c : ShadowConfig) : List String :=
  c.algorithmSelectors ++
    (if c.precision.isFloat then ["_FLOATTEX"] else []) ++
    (if c.precision.isLinearFloat then ["_FLOATLINEAR"] else []) ++
    (if c.rotateOffset then ["_ROTATE_OFFSET"] else [])

/-- The definition lines of the configuration. -/
def defines (c : ShadowConfig) : List String := c.selectors.map ("#define " ++ ·)

/-- The extension that filtering by derivatives needs. -/
def derivativesExtension : String := "#extension GL_OES_standard_derivatives : enable"

/-- The extensions of the configuration. -/
def extensions (c : ShadowConfig) : List String :=
  if c.algorithm = .pcf then [derivativesExtension] else []

/-- A configuration in JSON: a record whose fields all have defaults. -/
def ofJson (j : Json) : Option ShadowConfig := do
  let fields ← j.recordFields ["algorithm", "kernel", "fake_pcf", "rotate_offset", "precision"]
  match fields with
  | [algorithm, kernel, fakePcf, rotateOffset, precision] =>
    let d : ShadowConfig := {}
    let choice {α : Type} (ofName? : String → Option α) (j : Json) : Option α :=
      j.asChoice.bind ofName?
    return {
      algorithm := ← Json.optional (choice ShadowAlgorithm.ofName?) d.algorithm algorithm
      kernel := ← Json.optional (choice PcfKernel.ofName?) d.kernel kernel
      fakePcf := ← Json.optional Json.asBool d.fakePcf fakePcf
      rotateOffset := ← Json.optional Json.asBool d.rotateOffset rotateOffset
      precision := ← Json.optional (choice ShadowPrecision.ofName?) d.precision precision }
  | _ => none

end ShadowConfig

end SceneShading
