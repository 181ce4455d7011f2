import SceneShading.Diagnostic
import SceneShading.Node.Kind

/-!
# Catalogues of node types

A catalogue maps type names to constructors, which make a kind of node from arguments. The built-in
catalogue holds the whole node library, in seven themed tables; a renderer adds constructors, or
replaces one by registering its name again.
-/

namespace SceneShading

/-- An argument of a constructor. -/
inductive NodeArg where
  | bool (value : Bool)
  | int (value : Int64)
  | text (value : String)
deriving Repr, DecidableEq, Inhabited

namespace NodeArg

/-- The truth value of an argument. -/
def asBool : NodeArg → Option Bool
  | bool b => some b
  | _ => none

/-- The text of an argument. -/
def asText : NodeArg → Option String
  | text s => some s
  | _ => none

/-- The value of an argument that is a natural number of at most 32 bits. -/
def asNat : NodeArg → Option Nat
  | int i => if 0 ≤ i.toInt ∧ i.toInt < 0x100000000 then some i.toInt.toNat else none
  | _ => none

end NodeArg

/-- A constructor of nodes. -/
abbrev NodeConstructor := List NodeArg → Except Diagnostic NodeKind

namespace NodeConstructor

/-- A constructor that needs no arguments. -/
def constant (kind : NodeKind) : NodeConstructor := fun _ => .ok kind

/-- The text of an argument that may not be missing. -/
def requiredText (nodeType : String) (args : List NodeArg) (i : Nat) : Except Diagnostic String :=
  match (args[i]?).bind NodeArg.asText with
  | some s => .ok s
  | none => .error (.invalidArguments nodeType ("argument " ++ toString i ++ " must be a string"))

/-- The text of an argument, if it is one. -/
def text? (args : List NodeArg) (i : Nat) : Option String := (args[i]?).bind NodeArg.asText

/-- The truth value of an argument, if it is one. -/
def flag? (args : List NodeArg) (i : Nat) : Option Bool := (args[i]?).bind NodeArg.asBool

/-- Variables take a type, a name, and a value or a length where their class has one. -/
def variableOf (cls : VariableClass) : NodeConstructor := fun args => do
  let type ← requiredText cls.name args 0
  let name ← requiredText cls.name args 1
  let v : Variable := { cls, type, name }
  return .var (match cls with
    | .uniform => { v with size := (args[2]?).bind NodeArg.asNat }
    | .temporary | .constant => { v with value := text? args 2 }
    | _ => v)

/-- Definitions take a name and an optional value. -/
def define : NodeConstructor := fun args => do
  let name ← requiredText "Define" args 0
  return .define name ((text? args 1).getD "")

/-- Products take three optional flags: the side of the vector, whether the fourth component of the
vector is overwritten, and whether it is rebuilt. -/
def matrixMult (m : MatrixMult) : NodeConstructor := fun args =>
  .ok (.matrixMult { m with
    inverse := (flag? args 0).getD m.inverse
    overwriteW := (flag? args 1).getD m.overwriteW
    forceComplement := (flag? args 2).getD m.forceComplement })

/-- Snippets take their code. -/
def inlineCode : NodeConstructor := fun args => .ok (.inlineCode ((text? args 0).getD ""))

/-- A shadow configuration by the names of its parts, which are all optional. -/
def shadowConfig (nodeType : String) (args : List NodeArg) : Except Diagnostic ShadowConfig := do
  let d : ShadowConfig := {}
  let invalid (reason : String) : Diagnostic := .invalidArguments nodeType reason
  let algorithm ← match text? args 0 with
    | none => .ok d.algorithm
    | some s =>
      match ShadowAlgorithm.ofName? s with
      | some a => .ok a
      | none => .error (invalid ("unknown shadow algorithm " ++ s))
  let precision ← match text? args 2 with
    | none => .ok d.precision
    | some s =>
      match ShadowPrecision.ofName? s with
      | some p => .ok p
      | none => .error (invalid ("unknown shadow precision " ++ s))
  return {
    algorithm
    kernel := ((text? args 1).map PcfKernel.ofName).getD d.kernel
    precision
    fakePcf := (flag? args 3).getD d.fakePcf
    rotateOffset := (flag? args 4).getD d.rotateOffset }

/-- Shadow receivers take a configuration. -/
def shadowReceive : NodeConstructor := fun args => do
  return .shadowReceive (← shadowConfig "ShadowReceive" args)

/-- Shadow casts take a configuration. -/
def shadowCast : NodeConstructor := fun args => do
  return .shadowCast (← shadowConfig "ShadowCast" args)

end NodeConstructor

/-- Named constructors, each name at most once. -/
structure Catalogue where
  entries : List (String × NodeConstructor)

namespace Catalogue

open NodeConstructor

/-- A themed part of the node library. -/
abbrev Table := List (String × NodeConstructor)

/-- Variables and built-in outputs. -/
def dataTable : Table :=
  VariableClass.all.map (fun cls => (cls.name, variableOf cls)) ++
    [BuiltinOutput.fragColor, .position, .pointSize].map fun o => (o.typeName, .constant (.output o))

/-- Arithmetic, matrix products, alpha handling and snippets. -/
def operationTable : Table :=
  [("Add", .constant .add), ("Mult", .constant .mult), ("SetFromNode", .constant .setFromNode),
   ("MatrixMultPosition", .matrixMult .position), ("MatrixMultDirection", .matrixMult .direction),
   ("InlineCode", .inlineCode), ("SetAlpha", .constant .setAlpha),
   ("PreMultAlpha", .constant .preMultAlpha)]

/-- Functions on colors and normals, and definitions. -/
def functionTable : Table :=
  [ColorFunction.normalize, .srgbToLinear, .linearToSrgb, .frontNormal, .encodeRgbm,
    .decodeRgbm].map (fun f => (f.typeName, .constant (.function f))) ++ [("Define", .define)]

/-- Texture reads. -/
def textureTable : Table :=
  [TextureFetch.rgba, .rgb, .alpha, .intensity].map fun t => (t.typeName, .constant (.texture t))

/-- Light models. -/
def lightTable : Table :=
  [LightModel.point, .spot, .sun, .hemi].map fun l => (l.typeName, .constant (.light l))

/-- Morphing, skinning and billboards. -/
def animationTable : Table :=
  [("Morph", .constant .morph), ("Skinning", .constant .skinning),
   ("Billboard", .constant .billboard)]

/-- Shadow receivers and casts. -/
def shadowTable : Table := [("ShadowReceive", .shadowReceive), ("ShadowCast", .shadowCast)]

/-- The catalogue without node types. -/
def empty : Catalogue := ⟨[]⟩

instance : Inhabited Catalogue := ⟨empty⟩

/-- The constructor of a name. -/
def find? (c : Catalogue) (name : String) : Option NodeConstructor := c.entries.lookup name

/-- The name is registered. -/
def contains (c : Catalogue) (name : String) : Bool := (c.find? name).isSome

/-- The catalogue with a constructor registered, in place of an older one of its name. -/
def register (c : Catalogue) (name : String) (make : NodeConstructor) : Catalogue :=
  if c.contains name then ⟨c.entries.map fun e => if e.1 = name then (name, make) else e⟩
  else ⟨c.entries ++ [(name, make)]⟩

/-- The catalogue with every constructor of a table registered. -/
def registerAll (c : Catalogue) (table : Table) : Catalogue :=
  table.foldl (fun c e => c.register e.1 e.2) c

/-- The whole node library. -/
def builtin : Catalogue :=
  [dataTable, operationTable, functionTable, textureTable, lightTable, animationTable,
    shadowTable].foldl registerAll empty

/-- The registered names, in the order of their first registration. -/
def names (c : Catalogue) : List String := c.entries.map (·.1)

/-- A node of a registered type. -/
def create (c : Catalogue) (name : String) (args : List NodeArg) : Except Diagnostic NodeKind :=
  match c.find? name with
  | some make => make args
  | none => .error (.unknownNode name)

theorem create_of_not_contains {c : Catalogue} {name : String} (h : c.contains name = false)
    (args : List NodeArg) : c.create name args = .error (.unknownNode name) := by
  unfold contains at h
  unfold create
  split
  · simp_all
  · rfl

end Catalogue

end SceneShading
