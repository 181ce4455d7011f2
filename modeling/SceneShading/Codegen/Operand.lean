import SceneShading.Graph.Basic

/-!
# Operands

Statements speak of variables and literals. A pin of a node resolves to an operand if it is wired
to a literal, to a variable or to a built-in output; a pin that is wired to an operation does not.
-/

namespace SceneShading

/-- A variable with its type, or a literal, which has none. -/
structure Operand where
  name : String
  type : Option String
deriving Repr, DecidableEq, Inhabited

namespace Operand

/-- The operand has the type. -/
def is (o : Operand) (type : String) : Bool := o.type = some type

/-- A float or a literal, which is never cut into components. -/
def isScalar (o : Operand) : Bool := o.type.isNone || o.is "float"

/-- The components of a color without its alpha. -/
def rgbSwizzle (o : Operand) : String := if o.is "vec4" then ".rgb" else ""

/-- The component that holds the alpha. -/
def alphaSwizzle (o : Operand) : String := if o.isScalar then "" else ".a"

/-- The color without its alpha, as text. -/
def vec3 (o : Operand) : String := o.name ++ o.rgbSwizzle

/-- The alpha, as text. -/
def alpha (o : Operand) : String := o.name ++ o.alphaSwizzle

end Operand

namespace NodeKind

/-- The operand that a node stands for, if it is a variable or a built-in output. -/
def operand? : NodeKind → Option Operand
  | var v => some ⟨v.name, some v.type⟩
  | output o => some ⟨o.variableName, some o.glslType⟩
  | _ => none

end NodeKind

namespace Graph

/-- The operand that a node stands for. -/
def operand? (g : Graph) (id : NodeId) : Option Operand := (g.node? id).bind (·.kind.operand?)

/-- The operand that a source of a pin stands for. -/
def resolve (g : Graph) (nodeType : String) (source : Source) (pin : String) :
    Except Diagnostic Operand :=
  match source with
  | .literal text => .ok ⟨text, none⟩
  | .node id =>
    match g.operand? id with
    | some o => .ok o
    | none => .error (.notAVariable nodeType pin)

/-- The operand of an input pin, if the pin is wired. -/
def optionalInput (g : Graph) (n : Node) (pin : String) : Except Diagnostic (Option Operand) :=
  match n.input? pin with
  | none => .ok none
  | some source => some <$> g.resolve n.typeName source pin

/-- The operand of an input pin. -/
def input (g : Graph) (n : Node) (pin : String) : Except Diagnostic Operand :=
  match n.input? pin with
  | none => .error (.missingInput n.typeName pin)
  | some source => g.resolve n.typeName source pin

/-- The name of an input pin; a pin without a name is called by its place. -/
def pinName (i : Nat) (name : Option String) : String := name.getD (toString i)

/-- The inputs of a node with the names of their pins. -/
def pinnedInputs (n : Node) : List (String × Source) :=
  n.inputs.mapIdx fun i e => (pinName i e.1, e.2)

/-- The operands of all inputs, in the order of their wiring. -/
def inputs (g : Graph) (n : Node) : Except Diagnostic (List Operand) :=
  (pinnedInputs n).mapM fun e => g.resolve n.typeName e.2 e.1

/-- The operand of an output pin. -/
def output (g : Graph) (n : Node) (pin : String) : Except Diagnostic Operand :=
  match n.outputs.get? pin with
  | none => .error (.missingOutput n.typeName pin)
  | some id => g.resolve n.typeName (.node id) pin

/-- The operand of the only output, or of the first one. -/
def firstOutput (g : Graph) (n : Node) : Except Diagnostic Operand :=
  match n.outputs.first? with
  | none => .error (.missingOutput n.typeName "out")
  | some id => g.resolve n.typeName (.node id) "out"

/-- The operand of a named pin: an output of that name, or else an input. -/
def pin? (g : Graph) (n : Node) (pin : String) : Option Operand :=
  match n.outputs.pins.lookup pin with
  | some id => g.operand? id
  | none => (g.optionalInput n pin).toOption.join

end Graph

end SceneShading
