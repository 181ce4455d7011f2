import SceneShading.Diagnostic

/-!
# Notices

What a renderer writes to its journal while it builds graphs, compiles programs and cleans trees.
A notice is a cause; its level and its wording are functions of the cause.
-/

namespace SceneShading

/-- How urgent a notice is. -/
inductive NoticeLevel where
  | error
  | warn
  | debug
deriving Repr, DecidableEq, Inhabited

namespace NoticeLevel

/-- The name of a level. -/
def name : NoticeLevel → String
  | error => "error"
  | warn => "warn"
  | debug => "debug"

end NoticeLevel

/-- An entry of the journal. -/
inductive Notice where
  /-- A problem was recorded. -/
  | problem (d : Diagnostic)
  /-- A graph was compiled without roots. -/
  | noRoots
  /-- A node type was asked for that is not in the catalogue. -/
  | unknownNodeType (name : String)
  /-- A node type was registered over an older one. -/
  | nodeTypeReplaced (name : String)
  /-- A value was given to a node that holds none. -/
  | noValueToSet (node : Nat)
  /-- Code was given to a node that holds none. -/
  | noInlineCode (nodeType : String)
  /-- An output names a node that does not exist. -/
  | missingTarget (target node : Nat)
  | unnamedUniform
  | unnamedSampler (type : String)
  | attributeInFragment (name : String)
  | notAVarying (name : String)
  | undeclaredVarying (name type : String)
  /-- A traversal met a node that does not exist. -/
  | skippedNode (node : Nat)
  /-- A traversal did not reach a node. -/
  | neverCompiled (node : Nat) (nodeType : String)
  /-- A snippet names a pin that is not wired. -/
  | unboundPin (pin code : String)
  /-- A described node lists several outputs without pins. -/
  | severalOutputs (node first : String)
  /-- An included file is not in the library. -/
  | missingFile (name : String)
  /-- The skeleton could not be rendered. -/
  | skeletonFailed
  /-- A state tree was cleaned. -/
  | treeCleaned (dropped : Nat)
deriving Repr, DecidableEq, Inhabited

namespace Notice

/-- The level of a notice. -/
def level : Notice → NoticeLevel
  | noRoots | unnamedUniform | unnamedSampler _ | attributeInFragment _ | notAVarying _
  | undeclaredVarying .. | unboundPin .. | skeletonFailed => .error
  | problem _ | unknownNodeType _ | nodeTypeReplaced _ | noValueToSet _ | noInlineCode _
  | missingTarget .. | skippedNode _ | severalOutputs .. | missingFile _ => .warn
  | neverCompiled .. | treeCleaned _ => .debug

/-- The number of a node as it is written in notices. -/
def nodeText (node : Nat) : String := "#" ++ toString node

/-- The wording of a notice. -/
def text : Notice → String
  | problem d => d.message
  | noRoots => Diagnostic.noRoots.message
  | unknownNodeType name => "Node " ++ name ++ " does not exist"
  | nodeTypeReplaced name => "Node " ++ name ++ " already registered, overriding it"
  | noValueToSet node => "Node " ++ nodeText node ++ " has no value to set"
  | noInlineCode nodeType => nodeType ++ " takes no inline code"
  | missingTarget target node =>
    "Output " ++ nodeText target ++ " of node " ++ nodeText node ++ " does not exist"
  | unnamedUniform => "Cannot create unnamed uniform"
  | unnamedSampler type => "No name given for sampler type: " ++ type
  | attributeInFragment name => "No vertex attribute in fragment shader: " ++ name
  | notAVarying name => "Requesting varying " ++ name ++ " that was not created as a varying"
  | undeclaredVarying name type =>
    "Requesting a varying not declared in the fragment shader graph: " ++ name ++ " " ++ type
  | skippedNode node => "Skipping unknown node " ++ nodeText node
  | neverCompiled node nodeType =>
    "Node " ++ nodeText node ++ " " ++ nodeType ++ " requested but never compiled"
  | unboundPin pin code => "Inline code input " ++ pin ++ " not provided:\n" ++ code
  | severalOutputs node first =>
    "Node '" ++ node ++ "' has several positional outputs, only '" ++ first ++ "' is used"
  | missingFile name => "Shader file '" ++ name ++ "' not registered"
  | skeletonFailed => "Shader skeleton failed to render"
  | treeCleaned dropped => "StateGraph cleaned: " ++ toString dropped ++ " nodes recycled"

/-- A notice as a line of the journal. -/
def line (n : Notice) : String := n.level.name ++ ": " ++ n.text

end Notice

end SceneShading
