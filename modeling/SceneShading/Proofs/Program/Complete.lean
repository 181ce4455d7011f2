import Mathlib.Tactic
import SceneShading.Program.Compile
import SceneShading.Proofs.Codegen.Compilation
import SceneShading.Proofs.Program.Geometry
import SceneShading.Proofs.Program.Surface

/-!
# Programs without problems

Whatever attributes a program is generated from, both of its graphs are sound, so both of its stages
are compiled without any problem, and nothing is missing in them (`Context.compileProgram_complete`).
This is about generated surfaces under the built-in library: a description can ask for anything.
-/

namespace SceneShading

namespace Roles

variable (roles : Roles) (limits : BoneLimits)

/-- A fragment graph has roots. -/
lemma roots_fragmentGraph : roles.fragmentGraph.roots ≠ [] := by
  have hanswers : Answers (roles.cast.elim (FragmentGraph.build roles)
      fun cast => DepthPass.build cast roles.programName) (· ≠ []) := by
    cases roles.cast with
    | none =>
      rw [Option.elim_none, FragmentGraph.build]
      split
      all_goals exact .bind (.any _) fun _ _ => .bind (.any _) fun _ _ => .pure (List.cons_ne_nil _ _)
    | some cast =>
      rw [Option.elim_some, DepthPass.build]
      refine .bind (.any _) fun _ _ => .bind (.any _) fun _ _ => .bind (.any _) fun _ _ => ?_
      refine .bind (.any _) fun _ _ => .bind (.any _) fun _ _ => .bind (.any _) fun _ _ => ?_
      exact .bind (.any _) fun _ _ => .pure (List.cons_ne_nil _ _)
  exact hanswers (Graph.ofStage .fragment)

/-- A vertex graph has roots. -/
lemma roots_vertexGraph (fragment : Graph) : (roles.vertexGraph limits fragment).roots ≠ [] := by
  have hanswers : Answers (VertexGraph.build roles limits fragment.vertexFor.varyings) (· ≠ []) := by
    rw [VertexGraph.build]
    refine .bind (.any _) fun _ _ => .bind (.any _) fun _ _ => .bind (.any _) fun _ _ => ?_
    refine .bind (.any _) fun _ _ => .bind (.any _) fun _ _ => .bind (.any _) fun _ _ => ?_
    exact .bind (.any _) fun _ _ => .pure (List.cons_ne_nil _ _)
  exact hanswers fragment.vertexFor

end Roles

namespace Context

/-- The program of roles, when nothing is wrong with its vertex graph. -/
lemma compileProgram_of_fault (ctx : Context) (roles : Roles)
    (h : (roles.vertexGraph ctx.boneLimits roles.fragmentGraph.graph).graph.fault = none) :
    ctx.compileProgram roles none = .ok
      { vertex := ctx.compile (roles.vertexGraph ctx.boneLimits roles.fragmentGraph.graph).graph
          (roles.vertexGraph ctx.boneLimits roles.fragmentGraph.graph).roots
        fragment := ctx.compile roles.fragmentGraph.graph roles.fragmentGraph.roots } := by
  rw [compileProgram, Option.elim_none, compileFor, h]

/-- **Every surface has a program without problems.** Whatever the attributes, texture units,
settings and bone limits, a program is generated under the built-in library. No stage has a
diagnostic; in each graph the variables have names of their own, and each variable that a statement
names is declared exactly once in the source of its stage. -/
theorem compileProgram_complete (settings : Settings) (catalogue : Catalogue) (limits : BoneLimits)
    (attributes : List Attribute) (units : List (List Attribute)) :
    let roles := Roles.ofAttributes attributes units
    let fragment := roles.fragmentGraph
    let vertex := roles.vertexGraph limits fragment.graph
    ∃ program : CompiledProgram,
      Context.compileProgram { settings, catalogue, boneLimits := limits } roles none = .ok program ∧
        program.fragment.Complete settings fragment.graph fragment.roots ∧
          program.vertex.Complete settings vertex.graph vertex.roots := by
  intro roles fragment vertex
  have hfragment : fragment.graph.Sound fragment.roots :=
    roles.sound_fragmentGraph.1.mono (List.nil_subset _)
  have hvertex : vertex.graph.Sound vertex.roots :=
    (roles.sound_vertexGraph limits roles.sound_fragmentGraph.1).1
  refine ⟨_, compileProgram_of_fault _ roles hvertex.fault, ?_, ?_⟩
  · exact hfragment.complete_compileStage .common settings roles.roots_fragmentGraph
  · exact hvertex.complete_compileStage .common settings (roles.roots_vertexGraph limits _)

end Context

end SceneShading
