import Mathlib.Tactic
import SceneShading.Proofs.Codegen.Assignment
import SceneShading.Proofs.Graph.Precedence
import SceneShading.Proofs.Program.Complete

/-!
# Locals before they are read

The statements of `main` stand in the order in which a walk leaves their nodes, and the circles around
lights could spoil that order. They do not (`Context.compileProgram_initialized`): in both stages of a
generated program, whatever its attributes are, a statement that reads a local without an initial
value comes after a statement that assigns one.

This is put together from three facts: some operation writes the local (`Graph.Flow.written`), all
operations that write it are listed before those that read it (`Graph.Flow.listed_before`), and what
an operation is meant to write its statement assigns (`Graph.mem_writes_of_assigns`).
-/

namespace SceneShading

/-- The node reads the variable: an input is wired to it that is no out-parameter, or the code of the
node mentions an output that is wired to it before it assigned a value to it. -/
def Node.Takes (n : Node) (id : NodeId) : Prop :=
  (∃ e ∈ n.inputs, e.2 = .node id ∧ ∀ pin ∈ n.kind.outPins, e.1 ≠ some pin) ∨
    ∃ code, n.kind = .inlineCode code ∧ ∃ pin ∈ Snippet.exposed code, (pin, id) ∈ n.outputs.pins

/-- A statement of `main` that reads a local without an initial value comes after one that assigns a
value to the local. The source shows the statements of `main` in their order, unless the library was
changed, which can change the skeleton of all sources. -/
structure CompiledStage.Initialized (ctx : Context) (g : Graph) (roots : List NodeId)
    (c : CompiledStage) : Prop where
  compiled : c = ctx.compile g roots
  shows : ctx.library = {} → c.Shows ctx.settings g roots
  assigned : ∀ before n s after,
    g.statements ctx.settings.debugNodes roots = before ++ (n, s) :: after →
      ∀ id v, g.declared? id = some v → v.cls = .temporary → v.value = none → n.Takes id →
        ∃ e ∈ before, ⟨v.name, some v.type⟩ ∈ e.2.writes

namespace Graph

variable {g : Graph} {roots roots' : List NodeId}

/-- In a sound graph through which values flow, every local is assigned a value before it is read. -/
lemma Sound.initialized_compile (hsound : g.Sound roots) (hflow : g.Flow roots' [])
    (hroots : roots ≠ []) (ctx : Context) : (ctx.compile g roots).Initialized ctx g roots where
  compiled := rfl
  shows hlibrary := by
    rw [Context.compile, hlibrary]
    exact hsound.shows_compileStage .common ctx.settings hroots
  assigned before n s after hsplit id v hv hcls hvalue htakes := by
    -- the place of the reader in the walk
    obtain ⟨front, back, hwalk, rfl, hback⟩ := List.filterMap_eq_append_iff.1 hsplit
    obtain ⟨skipped, i, back, rfl, hskipped, hi, -⟩ := List.filterMap_eq_cons_iff.1 hback
    obtain ⟨hn, hs, -⟩ := statementAt?_eq_some_iff.1 hi
    have hoperation := Sound.isOperation_of_checkedStatement hs
    have ho : g.operation? i = some ⟨n.kind, n.inputs, n.outputs.targets⟩ :=
      operation?_eq_some_iff.2 ⟨n, hn, hoperation, rfl⟩
    rcases htakes with ⟨e, he, hsource, hpin⟩ | ⟨code, hcode, pin, hexposed, hmem⟩
    · obtain ⟨j, hwrites⟩ :=
        (hflow.written id v hv (.inl ⟨hcls, hvalue⟩)).resolve_left List.not_mem_nil
      have hreads : g.Reads i id := ⟨_, ho, List.mem_filterMap.2 ⟨e, he, by rw [hsource]; rfl⟩⟩
      have hhands : ¬g.Hands i id := by
        rintro ⟨o, ho', hhands⟩
        rw [ho] at ho'
        cases ho'
        obtain ⟨pin, hout, heq⟩ := hhands e he hsource
        exact hpin pin hout heq
      rw [← List.append_assoc] at hwalk
      have hbefore := hflow.listed_before hsound hwalk hreads hhands hwrites
      obtain ⟨m, t, ht, hassigned⟩ :=
        hsound.exists_statement ctx.settings.debugNodes hwrites hv hvalue
      refine ⟨(m, t), List.mem_filterMap.2 ⟨j, ?_, ht⟩, hassigned⟩
      refine (List.mem_append.1 hbefore).resolve_right fun hskip => ?_
      rw [hskipped j hskip] at ht
      cases ht
    · -- the code would only read an output that has an initial value
      obtain ⟨w, hw, hvalued⟩ :=
        ((hsound.settled i n hn).wiring hoperation).exposed code hcode _ hmem hexposed
      rw [hv] at hw
      cases hw
      rw [hvalue] at hvalued
      cases hvalued

end Graph

namespace Context

/-- **Locals are assigned before they are read.** Whatever the attributes and texture units, a program
is generated, and in both of its stages every statement of `main` that reads a local without an
initial value comes after a statement that assigns a value to the local, although lights and their
out-parameters are inputs of one another. -/
theorem compileProgram_initialized (ctx : Context) (attributes : List Attribute)
    (units : List (List Attribute)) :
    let roles := Roles.ofAttributes attributes units
    let fragment := roles.fragmentGraph
    let vertex := roles.vertexGraph ctx.boneLimits fragment.graph
    ∃ program : CompiledProgram, ctx.compileProgram roles none = .ok program ∧
      program.fragment.Initialized ctx fragment.graph fragment.roots ∧
        program.vertex.Initialized ctx vertex.graph vertex.roots := by
  intro roles fragment vertex
  obtain ⟨hfragment, hfragmentFlow⟩ := roles.sound_fragmentGraph
  obtain ⟨hvertex, hvertexFlow, -, -⟩ := roles.sound_vertexGraph ctx.boneLimits hfragment
  refine ⟨_, compileProgram_of_fault _ roles hvertex.fault, ?_, ?_⟩
  · exact (hfragment.mono (List.nil_subset _)).initialized_compile hfragmentFlow
      roles.roots_fragmentGraph ctx
  · exact hvertex.initialized_compile hvertexFlow (roles.roots_vertexGraph _ _) ctx

end Context

end SceneShading
