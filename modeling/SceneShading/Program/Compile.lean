import SceneShading.Codegen.Stage
import SceneShading.Description.Build
import SceneShading.Program.DepthPass
import SceneShading.Program.Fragment
import SceneShading.Program.Vertex

/-!
# Compiling programs

A program is a vertex stage and a fragment stage. The fragment graph comes first, from the roles of
the attributes or from a description; the vertex graph is built to feed the varyings that the
fragment graph asks for.
-/

namespace SceneShading

/-- What all programs of a renderer share. -/
structure Context where
  settings : Settings := {}
  catalogue : Catalogue := .builtin
  library : Library := {}
  boneLimits : BoneLimits := {}

namespace Context

/-- The context of settings, before anything else is known. -/
def ofSettings (settings : Settings) : Context :=
  { settings, boneLimits := .ofCap settings.boneCap }

/-- A stage of the context. -/
def compile (ctx : Context) (g : Graph) (roots : List NodeId) : CompiledStage :=
  compileStage .common ctx.library ctx.settings g roots

end Context

/-- A graph with its roots. -/
structure RootedGraph where
  graph : Graph
  roots : List NodeId
deriving Repr, Inhabited

/-- What a builder makes of a graph. -/
def RootedGraph.ofBuilder (builder : Builder (List NodeId)) (g : Graph) : RootedGraph :=
  let (roots, graph) := builder g
  { graph, roots }

namespace Roles

/-- The fragment graph of roles: the surface, or its depth when it is drawn into a shadow map. -/
def fragmentGraph (r : Roles) : RootedGraph :=
  .ofBuilder (r.cast.elim (FragmentGraph.build r) fun cast => DepthPass.build cast r.programName)
    (Graph.ofStage .fragment)

/-- The vertex graph of roles that feeds a fragment graph. -/
def vertexGraph (r : Roles) (limits : BoneLimits) (fragment : Graph) : RootedGraph :=
  let g := fragment.vertexFor
  .ofBuilder (VertexGraph.build r limits g.varyings) g

end Roles

/-- The two stages of a program. -/
structure CompiledProgram where
  vertex : CompiledStage
  fragment : CompiledStage
deriving Repr, Inhabited

namespace CompiledProgram

/-- No stage has an error. -/
def isValid (p : CompiledProgram) : Bool := p.vertex.isValid && p.fragment.isValid

/-- The problems of both stages. -/
def diagnostics (p : CompiledProgram) : List Diagnostic :=
  p.vertex.diagnostics ++ p.fragment.diagnostics

end CompiledProgram

namespace Context

/-- The program of a fragment graph: the vertex graph is built for it, and both are compiled. A
fault of the vertex graph is a fault of the program. -/
def compileFor (ctx : Context) (roles : Roles) (fragment : RootedGraph) :
    Except Fault CompiledProgram :=
  let vertex := roles.vertexGraph ctx.boneLimits fragment.graph
  match vertex.graph.fault with
  | some fault => .error fault
  | none =>
    .ok { vertex := ctx.compile vertex.graph vertex.roots
          fragment := ctx.compile fragment.graph fragment.roots }

/-- The fragment graph of a description. -/
def describedGraph (ctx : Context) (d : Description) : RootedGraph :=
  let (roots, graph) := d.build ctx.catalogue (Graph.ofStage .fragment)
  { graph, roots }

/-- The program of roles; a description takes the place of their surface. -/
def compileProgram (ctx : Context) (roles : Roles) (description : Option Description) :
    Except Fault CompiledProgram :=
  ctx.compileFor roles (description.elim roles.fragmentGraph ctx.describedGraph)

end Context

end SceneShading
