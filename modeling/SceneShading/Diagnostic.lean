/-!
# Diagnostics

What is wrong with a shading graph. Diagnostics are collected while a graph is built and compiled,
so that a program is produced whatever happens; only some of them make it invalid.
-/

namespace SceneShading

/-- Why a program skeleton cannot be rendered. -/
inductive SkeletonError where
  /-- A placeholder that has no end, or holds no name. -/
  | badPlaceholder
  /-- A statement line that is not part of the language, or does not fit the lines before it. -/
  | badStatement (line : String)
  /-- A name that nothing is known under. -/
  | unknownName (name : String)
  /-- A name whose value cannot be repeated over. -/
  | noList (name : String)
  /-- Blocks inside blocks, more of them than a skeleton can have. -/
  | nestedTooDeep
deriving Repr, DecidableEq, Inhabited

/-- A structural problem of a shading graph. -/
inductive Diagnostic where
  | missingInput (nodeType pin : String)
  | missingOutput (nodeType pin : String)
  /-- A pin that must name a variable is wired to an operation. -/
  | notAVariable (nodeType pin : String)
  | unknownNode (name : String)
  | invalidArguments (name reason : String)
  /-- A description refers to a node that it does not declare. -/
  | unknownReference (node reference : String)
  /-- A variable is requested with another type than it was declared with. -/
  | typeMismatch (name requested declared : String)
  | noRoots
  | unresolvedInclude (name : String)
  | skeleton (reason : SkeletonError)
deriving Repr, DecidableEq, Inhabited

/-- How bad a problem is. -/
inductive Severity where
  | warning
  | error
deriving Repr, DecidableEq, Inhabited

namespace Severity

/-- The name of a severity. -/
def name : Severity → String
  | warning => "Warning"
  | error => "Error"

end Severity

namespace Diagnostic

/-- A type mismatch leaves the program usable; everything else is an error. -/
def severity : Diagnostic → Severity
  | typeMismatch .. => .warning
  | _ => .error

/-- The problem makes the program invalid. -/
def isError (d : Diagnostic) : Bool := d.severity = .error

/-- The name of the problem. -/
def kindName : Diagnostic → String
  | missingInput .. => "MissingInput"
  | missingOutput .. => "MissingOutput"
  | notAVariable .. => "NotAVariable"
  | unknownNode .. => "UnknownNode"
  | invalidArguments .. => "InvalidArguments"
  | unknownReference .. => "UnknownReference"
  | typeMismatch .. => "TypeMismatch"
  | noRoots => "NoRoots"
  | unresolvedInclude .. => "UnresolvedInclude"
  | skeleton .. => "Template"

/-- The wording of the problem. -/
def message : Diagnostic → String
  | missingInput nodeType pin =>
    "Shader node " ++ nodeType ++ " validation error: input '" ++ pin ++ "' is missing"
  | missingOutput nodeType pin =>
    "Shader node " ++ nodeType ++ " validation error: output '" ++ pin ++ "' is missing"
  | notAVariable nodeType pin =>
    "Shader node " ++ nodeType ++ ": port '" ++ pin ++ "' is not connected to a variable"
  | unknownNode name => "Node " ++ name ++ " does not exist"
  | invalidArguments name reason => "Invalid arguments for node " ++ name ++ ": " ++ reason
  | unknownReference node reference =>
    "Node '" ++ node ++ "' references unknown node '" ++ reference ++ "'"
  | typeMismatch name requested declared =>
    "Variable '" ++ name ++ "' requested as " ++ requested ++ " but declared as " ++ declared
  | noRoots => "Shader without any final node output (need at least one)"
  | unresolvedInclude name => "Shader file '" ++ name ++ "' not registered"
  | skeleton .badPlaceholder => "Shader template error: bad placeholder"
  | skeleton (.badStatement line) => "Shader template error: bad statement '" ++ line ++ "'"
  | skeleton (.unknownName name) => "Shader template error: unknown name '" ++ name ++ "'"
  | skeleton (.noList name) => "Shader template error: no list '" ++ name ++ "'"
  | skeleton .nestedTooDeep => "Shader template error: nested too deep"

theorem isError_iff (d : Diagnostic) :
    d.isError = true ↔ ∀ name requested declared, d ≠ typeMismatch name requested declared := by
  cases d <;> simp [isError, severity]

end Diagnostic

end SceneShading
