import SceneShading.Codegen.Declaration
import SceneShading.Codegen.Generate
import SceneShading.Digest.Xxh3
import SceneShading.Source.Process

/-!
# Compiling a stage

A graph and its roots become the source of a stage. One walk from the roots decides which nodes take
part and in which order their statements stand; locals are declared for every registered variable,
reached or not. A node that cannot become a statement is a problem of the result and leaves no
trace in the source, so that compiling always ends with a source.
-/

namespace SceneShading

/-- The result of compiling one stage. -/
structure CompiledStage where
  stage : Stage
  source : String
  diagnostics : List Diagnostic := []
  journal : List Notice := []
deriving Repr, Inhabited

namespace CompiledStage

/-- No problem is an error. -/
def isValid (c : CompiledStage) : Bool := !c.diagnostics.any Diagnostic.isError

/-- The digest of the source. -/
def hash (c : CompiledStage) : Digest.Wide := Digest.ofText c.source

end CompiledStage

namespace Graph

/-- The statement of a node whose required pins are wired. -/
def checkedStatement (g : Graph) (debug : Bool) (n : Node) : Except Diagnostic (Option Statement) :=
  match n.validate with
  | .ok () => g.statement debug n
  | .error d => .error d

end Graph

/-- The lines of `main` and the problems of its nodes. -/
structure MainBody where
  lines : List String := []
  diagnostics : List Diagnostic := []
  journal : List Notice := []
deriving Repr, Inhabited

namespace MainBody

/-- The lines of a statement: its comment, and its text; an empty text leaves no line at all. -/
def linesOf (n : Node) (s : Statement) : List String :=
  let text := s.render
  if text.isEmpty then [] else n.comment.toList ++ [text]

/-- What a node adds to `main`. -/
def ofNode (g : Graph) (debug : Bool) (n : Node) : MainBody :=
  match g.checkedStatement debug n with
  | .ok none => {}
  | .ok (some s) => { lines := linesOf n s }
  | .error d =>
    { diagnostics := [d], journal := Graph.statementNotices n (.error d) ++ [.problem d] }

/-- One part of `main` after another. -/
def append (a b : MainBody) : MainBody :=
  ⟨a.lines ++ b.lines, a.diagnostics ++ b.diagnostics, a.journal ++ b.journal⟩

/-- The body of `main` for nodes in order. -/
def ofNodes (g : Graph) (debug : Bool) (nodes : List Node) : MainBody :=
  nodes.foldr (fun n b => append (ofNode g debug n) b) {}

end MainBody

/-- The declarations of the locals of `main`. -/
def localBlock (g : Graph) : List String :=
  let locals := g.registered.filterMap Node.localDeclaration
  if locals.isEmpty then [] else ["// vars\n" ++ " ".intercalate locals ++ "\n// end vars\n"]

/-- The declaration that the position of a vertex stage does not depend on the program. -/
def invariantBlock (settings : Settings) (stage : Stage) : List String :=
  if stage = .vertex ∧ settings.invariantPosition = true then ["\ninvariant gl_Position;"] else []

/-- The parts of a program before its includes are resolved. -/
def assemble (settings : Settings) (g : Graph) (nodes : List Node) (main : MainBody) : String :=
  "\n".intercalate <|
    ["\n", globalBlock g.stage nodes] ++ invariantBlock settings g.stage ++
      ["\n", "\n".intercalate (collectFunctions nodes), "void main() \x7b"] ++ localBlock g ++
      ["\n".intercalate main.lines, "\x7d"]

/-- What compiling without roots is reported as. -/
def rootDiagnostics (roots : List NodeId) : List Diagnostic :=
  if roots.isEmpty then [.noRoots] else []

/-- What compiling without roots leaves in the journal. -/
def rootNotices (roots : List NodeId) : List Notice := if roots.isEmpty then [.noRoots] else []

/-- The source of a graph from its roots. -/
def compileStage (pool : SymbolPool) (lib : Library) (settings : Settings) (g : Graph)
    (roots : List NodeId) : CompiledStage :=
  let walk := g.walk roots
  let nodes := g.nodesOf walk.order
  let main := MainBody.ofNodes g settings.debugNodes nodes
  let processed := Source.process pool lib settings (assemble settings g nodes main)
    (collectDefines nodes) (collectExtensions nodes)
  { stage := g.stage
    source := processed.source
    diagnostics :=
      g.diagnostics ++ rootDiagnostics roots ++ main.diagnostics ++ processed.diagnostics
    journal :=
      rootNotices roots ++ g.walkNotices walk ++ main.journal ++ processed.journal }

end SceneShading
