import SceneShading.Graph.Traverse
import SceneShading.Node.Pins
import SceneShading.Source.MacroSet
import SceneShading.Text.Order

/-!
# Declarations

What the nodes of a program put outside `main`: definitions and extensions for the preprocessor,
variables at file scope, and functions. Functions and extensions are shared by all nodes of a type,
so the first node of each type speaks for it.
-/

namespace SceneShading

namespace Node

/-- The definition lines of a node. -/
def defines (n : Node) : List String :=
  match n.kind with
  | .define name value => [defineLine name value]
  | .shadowReceive config | .shadowCast config => config.defines
  | _ => []

/-- The extension lines of a node. -/
def extensions (n : Node) : List String :=
  match n.kind with
  | .shadowReceive config => config.extensions
  | _ => []

/-- The key under which the definitions of a node are collected: the name for a definition, the
type of the node otherwise. -/
def defineKey (n : Node) : String :=
  match n.kind with
  | .define name _ => name
  | _ => n.typeName

/-- The declaration of a node at file scope. -/
def globalDeclaration (n : Node) : Option String := n.kind.declared?.bind Variable.globalDeclaration

/-- The declaration of a node inside `main`. -/
def localDeclaration (n : Node) : Option String := n.kind.declared?.bind Variable.localDeclaration

/-- The parameters of the morph function: the target of each place. -/
def morphParameters (targets : Nat) : String :=
  String.join ((List.range targets).map fun i => ", const in vec3 " ++ targetPin i)

/-- The body of the morph function. A single target is mixed in; several targets share what the
weights leave of the vertex. -/
def morphBody (targets : Nat) : String :=
  if targets ≤ 1 then "return mix(vertex, target0, weights[0])"
  else
    let weight (i : Nat) := "weights[" ++ toString i ++ "]"
    "\tvec3 vecOut = vertex * (1.0 - ( " ++ " + ".intercalate ((List.range targets).map weight) ++
      "));\n" ++
      String.join ((List.range targets).map fun i =>
        "\tvecOut += " ++ targetPin i ++ " * " ++ weight i ++ ";\n") ++
      "\treturn vecOut"

/-- The morph function for the targets of a node. -/
def morphFunction (n : Node) : String :=
  let targets := max n.targetCount 1
  "vec3 morphTransform( const in vec4 weights,  const in vec3 vertex" ++ morphParameters targets ++
    " ) \x7b \n" ++ morphBody targets ++ ";\n\x7d\n"

/-- A line that includes a library file. -/
def includeLine (file : String) : String := "#pragma include \"" ++ file ++ "\""

/-- The code at file scope that a node calls: a library file, or a function of its own. -/
def functionDeclaration (n : Node) : Option String :=
  match n.kind with
  | .function _ => some (includeLine "functions.glsl")
  | .texture _ => some (includeLine "textures.glsl")
  | .light _ => some (includeLine "lights.glsl")
  | .skinning => some (includeLine "skinning.glsl")
  | .billboard => some (includeLine "billboard.glsl")
  | .shadowReceive _ => some (includeLine "shadowsReceive.glsl")
  | .shadowCast _ => some (includeLine "shadowsCastFrag.glsl")
  | .morph => some n.morphFunction
  | _ => none

end Node

/-- The entries whose key no earlier entry has. -/
def firstByKey {α : Type} (key : α → String) : List String → List α → List α
  | _, [] => []
  | seen, a :: r =>
    if seen.contains (key a) then firstByKey key seen r else a :: firstByKey key (key a :: seen) r

/-- The definition lines of nodes. -/
def collectDefines (nodes : List Node) : List String :=
  (firstByKey Node.defineKey [] nodes).flatMap Node.defines

/-- The extension lines of nodes. -/
def collectExtensions (nodes : List Node) : List String :=
  (firstByKey Node.typeName [] nodes).flatMap Node.extensions

/-- The functions of nodes. -/
def collectFunctions (nodes : List Node) : List String :=
  (firstByKey Node.typeName [] nodes).filterMap Node.functionDeclaration

/-- The place of the position attribute among sorted declarations: the first attribute that mentions
a vertex. -/
def positionPlace (declarations : List String) : Option Nat :=
  let attributes := declarations.takeWhile fun d => d.toList.head? == some 'a'
  attributes.findIdx? fun d => Text.occursIn "Vertex".toList d.toList

/-- A list with the entry of a place moved to the front. -/
def moveToFront {α : Type} (xs : List α) (i : Nat) : List α :=
  match xs[i]? with
  | some x => x :: (xs.take i ++ xs.drop (i + 1))
  | none => xs

/-- The declarations at file scope in the order they are written: by text, but a vertex stage
declares the position attribute first. -/
def orderDeclarations (stage : Stage) (declarations : List String) : List String :=
  let sorted := Text.sort declarations
  match stage, positionPlace sorted with
  | .vertex, some i => moveToFront sorted i
  | _, _ => sorted

/-- Declarations on lines, with an empty line where the first letters of neighbours differ. -/
def layoutDeclarations : List String → String
  | [] => ""
  | [d] => d
  | d :: e :: r =>
    let gap := if d.toList.head? = e.toList.head? then "\n" else "\n\n"
    d ++ gap ++ layoutDeclarations (e :: r)

/-- The block of declarations at file scope. -/
def globalBlock (stage : Stage) (nodes : List Node) : String :=
  layoutDeclarations (orderDeclarations stage (nodes.filterMap Node.globalDeclaration))

theorem moveToFront_perm {α : Type} (xs : List α) (i : Nat) : (moveToFront xs i).Perm xs := by
  unfold moveToFront
  split
  · rename_i x h
    obtain ⟨hi, rfl⟩ := List.getElem?_eq_some_iff.1 h
    refine List.perm_middle.symm.trans (.of_eq ?_)
    rw [List.getElem_cons_drop hi, List.take_append_drop]
  · exact .refl _

/-- Ordering loses and repeats no declaration. -/
theorem orderDeclarations_perm (stage : Stage) (declarations : List String) :
    (orderDeclarations stage declarations).Perm declarations := by
  unfold orderDeclarations
  dsimp only
  split
  · exact (moveToFront_perm _ _).trans (Text.sort_perm _)
  · exact Text.sort_perm _

end SceneShading
