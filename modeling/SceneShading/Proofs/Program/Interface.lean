import Mathlib.Tactic
import SceneShading.Proofs.Codegen.Assignment
import SceneShading.Proofs.Graph.Precedence
import SceneShading.Proofs.Program.Complete

/-!
# The interface of the stages

The stages of a program meet in the varyings: the fragment stage reads them, and the vertex stage has
to declare and to write them. The two graphs are built one after the other, and all that the second
one knows of the first one is a list of names with types. It is enough
(`Context.compileProgram_interface`): the vertex graph starts from these varyings, they are among its
roots, and its builder closes every one of them with an operation that writes it.
-/

namespace SceneShading

/-- What the fragment stage declares as a varying, the vertex stage declares under the same name and
with the same type, and a statement of its `main` assigns a value to it. -/
structure CompiledProgram.Agrees (ctx : Context) (fragment vertex : RootedGraph)
    (program : CompiledProgram) : Prop where
  compiled : program = ⟨ctx.compile vertex.graph vertex.roots,
    ctx.compile fragment.graph fragment.roots⟩
  shows : ctx.library = {} → program.fragment.Shows ctx.settings fragment.graph fragment.roots ∧
    program.vertex.Shows ctx.settings vertex.graph vertex.roots
  fed : ∀ v ∈ fragment.graph.fileVariables fragment.roots, v.cls = .varying →
    (∃ w ∈ vertex.graph.fileVariables vertex.roots,
      w.cls = .varying ∧ w.name = v.name ∧ w.type = v.type ∧
        w.globalDeclaration = v.globalDeclaration) ∧
      ∃ e ∈ vertex.graph.statements ctx.settings.debugNodes vertex.roots,
        ⟨v.name, some v.type⟩ ∈ e.2.writes

namespace Roles

variable (roles : Roles) (limits : BoneLimits)

/-- A varying of the fragment graph has a node in the vertex graph, which is a root there. -/
lemma exists_owed {id : NodeId} {v : Variable}
    (hv : roles.fragmentGraph.graph.declared? id = some v) (hcls : v.cls = .varying) :
    let vertex := roles.vertexGraph limits roles.fragmentGraph.graph
    ∃ owed ∈ roles.fragmentGraph.graph.vertexFor.varyings.map (·.2), owed ∈ vertex.roots ∧
      vertex.graph.declared? owed = some { cls := .varying, type := v.type, name := v.name } := by
  intro vertex
  obtain ⟨hsound, hflow⟩ := roles.sound_fragmentGraph
  obtain ⟨-, -, hgrows, hroots⟩ := roles.sound_vertexGraph limits hsound
  have howes : Graph.Owes [] roles.fragmentGraph.graph roles.fragmentGraph.graph.varyings
      roles.fragmentGraph.graph.vertexFor := hsound.owes_vertexFor
  obtain ⟨owed, hmem, howed⟩ := howes.given _ (hflow.varying id v hv hcls) v hv
  have hid : owed ∈ roles.fragmentGraph.graph.vertexFor.varyings.map (·.2) :=
    List.mem_map_of_mem hmem
  exact ⟨owed, hid, hroots hid, hgrows.declared? howed⟩

end Roles

namespace Context

/-- **The stages agree on their interface.** Whatever the attributes and texture units, a program is
generated whose vertex stage declares every varying that the fragment stage declares, with the same
type, and assigns a value to it. -/
theorem compileProgram_interface (ctx : Context) (attributes : List Attribute)
    (units : List (List Attribute)) :
    let roles := Roles.ofAttributes attributes units
    let fragment := roles.fragmentGraph
    let vertex := roles.vertexGraph ctx.boneLimits fragment.graph
    ∃ program : CompiledProgram, ctx.compileProgram roles none = .ok program ∧
      program.Agrees ctx fragment vertex := by
  intro roles fragment vertex
  obtain ⟨hfragment, -⟩ := roles.sound_fragmentGraph
  obtain ⟨hvertex, hflow, -, -⟩ := roles.sound_vertexGraph ctx.boneLimits hfragment
  refine ⟨_, compileProgram_of_fault ctx roles hvertex.fault, rfl, fun hlibrary => ?_,
    fun v hv hcls => ?_⟩
  · rw [compile, compile, hlibrary]
    exact ⟨(hfragment.mono (List.nil_subset _)).shows_compileStage .common ctx.settings
      roles.roots_fragmentGraph,
      hvertex.shows_compileStage .common ctx.settings (roles.roots_vertexGraph _ _)⟩
  · obtain ⟨id, -, hdeclared, -⟩ := Graph.mem_fileVariables.1 hv
    obtain ⟨owed, hid, hroot, howed⟩ := roles.exists_owed ctx.boneLimits hdeclared hcls
    have hdeclared : (vertex.graph.declared? owed).isSome := by
      rw [howed, Option.isSome_some]
    obtain ⟨n, hn, -⟩ := Graph.exists_node_of_declared? hdeclared
    have hreached : owed ∈ vertex.graph.traverse vertex.roots :=
      Graph.mem_traverse_of_root hroot (by rw [hn, Option.isSome_some])
    refine ⟨⟨_, Graph.mem_fileVariables.2 ⟨owed, hreached, howed, rfl⟩, rfl, rfl, rfl, ?_⟩, ?_⟩
    · rw [Variable.globalDeclaration, Variable.globalDeclaration, hcls]
    · obtain ⟨i, hwrites⟩ := (hflow.written owed _ howed (.inr ⟨rfl, hid⟩)).resolve_left
        List.not_mem_nil
      obtain ⟨n, s, hs, hassigned⟩ :=
        hvertex.exists_statement ctx.settings.debugNodes hwrites howed rfl
      have hlisted := hflow.mem_traverse_of_writes hreached hdeclared hwrites
      exact ⟨(n, s), List.mem_filterMap.2 ⟨i, hlisted, hs⟩, hassigned⟩

end Context

end SceneShading
