import SceneShading.Codegen.Operand

/-!
# Statements

What an operation node becomes in `main`. A statement is kept as data, with its operands, until it
is written, so that what it reads and writes can be read off; `Statement.render` is the only place
that knows its spelling.
-/

namespace SceneShading

/-- An operand with the components that are taken of it. -/
structure Argument where
  operand : Operand
  swizzle : String := ""
deriving Repr, DecidableEq, Inhabited

namespace Argument

/-- The argument as text. -/
def render (a : Argument) : String := a.operand.name ++ a.swizzle

/-- The whole operand. -/
def whole (o : Operand) : Argument := { operand := o }

/-- A color without its alpha. -/
def rgb (o : Operand) : Argument := ⟨o, o.rgbSwizzle⟩

end Argument

/-- What is known about the pins of a call, for a comment before it. -/
structure CallNote where
  outputs : List (Option Operand)
  inputs : List (Option Operand)
deriving Repr, DecidableEq, Inhabited

namespace CallNote

/-- The line that describes a pin. -/
def describe : Option Operand → String
  | none => "// undefined"
  | some ⟨name, none⟩ => "// " ++ name
  | some ⟨name, some type⟩ => "// " ++ type ++ " " ++ name

/-- The lines of a note; they start with an empty one. -/
def lines (n : CallNote) (hasArguments : Bool) : List String :=
  ["", "// output"] ++ n.outputs.map describe ++
    if hasArguments then "// inputs" :: n.inputs.map describe else []

end CallNote

/-- A piece of a snippet. -/
inductive Piece where
  /-- Text that is kept. -/
  | text (text : String)
  /-- The operand wired to a pin. -/
  | pin (name : String) (operand : Operand)
deriving Repr, DecidableEq, Inhabited

namespace Piece

/-- The piece as text. -/
def render : Piece → String
  | text s => s
  | pin _ o => o.name

end Piece

/-- A statement of `main`. -/
inductive Statement where
  /-- The first input and the others, combined by an operator. -/
  | combine (operator : String) (target first : Operand) (rest : List Operand)
  | product (m : MatrixMult) (target vec matrix : Operand)
  | snippet (pieces : List Piece)
  | setAlpha (target color alpha : Operand)
  | premultiply (target color alpha : Operand)
  | frontNormal (target normal : Operand)
  | call (function : String) (target : Argument) (args : List Argument) (note : Option CallNote)
deriving Repr, DecidableEq, Inhabited

namespace Statement

/-- The components that a combination takes of vectors, by the type of its target. -/
def targetSwizzle (target : Operand) : String :=
  match target.type with
  | some "vec4" => ".rgba"
  | some "vec3" => ".rgb"
  | some "vec2" => ".rg"
  | _ => ""

/-- An operand of a combination. -/
def combined (target o : Operand) : Argument :=
  if o.isScalar then .whole o else ⟨o, targetSwizzle target⟩

/-- The vector of a product with four components. -/
def homogeneous (m : MatrixMult) (vec : Operand) : String :=
  if m.forceComplement || !vec.is "vec4" then
    "vec4(" ++ vec.name ++ ".xyz, " ++ m.role.complement ++ ")"
  else vec.name

/-- The text of a product. -/
def renderProduct (m : MatrixMult) (target vec matrix : Operand) : String :=
  let v := homogeneous m vec
  let product := if m.inverse then v ++ "*" ++ matrix.name else matrix.name ++ "*" ++ v
  let type := target.type.getD "vec4"
  let value := if type = "vec4" then product else type ++ "(" ++ product ++ ")"
  let assignment := target.name ++ " = " ++ value ++ ";"
  if !m.overwriteW && vec.is "vec4" then
    assignment ++ "\n" ++ target.name ++ ".a = " ++ vec.name ++ ".a;"
  else assignment

/-- The text of a call. -/
def renderCall (function : String) (target : Argument) (args : List Argument) : String :=
  target.render ++ " = " ++ function ++ "( " ++ ", ".intercalate (args.map Argument.render) ++
    " );\n"

/-- The text of a statement. -/
def render : Statement → String
  | combine operator target first rest =>
    target.name ++ " = " ++
      operator.intercalate ((first :: rest).map fun o => (combined target o).render) ++ ";"
  | product m target vec matrix => renderProduct m target vec matrix
  | snippet pieces => String.join (pieces.map Piece.render)
  | setAlpha target color alpha =>
    target.name ++ " = vec4( " ++ color.name ++ ".rgb, " ++ alpha.alpha ++ " );"
  | premultiply target color alpha =>
    target.name ++ ".rgb = " ++ color.name ++ ".rgb * " ++ alpha.alpha ++ ";"
  | frontNormal target normal =>
    target.name ++ " = gl_FrontFacing ? " ++ normal.name ++ " : -" ++ normal.name ++ " ;"
  | call function target args note =>
    match note with
    | none => renderCall function target args
    | some n => "\n".intercalate (n.lines (!args.isEmpty) ++ [renderCall function target args])

end Statement

end SceneShading
