import Mathlib.Tactic
import SceneShading.Proofs.Codegen.Layout
import SceneShading.Proofs.Program.Attributes
import SceneShading.Proofs.Program.Complete
import SceneShading.Proofs.Program.Delivery

/-!
# The position attribute is declared first

A vertex stage moves the first attribute that mentions a vertex to the front of its declarations. In a
generated vertex stage only the position and its morph targets do (`Variable.IsTold`), and the roots
reach the position whatever is morphed, skinned or a billboard (`Roles.woven_vertexGraph`). A target has
an underscore where the declaration of the position ends, so it stands behind the position, and what is
moved to the front is the position itself (`Graph.Woven.head?_fileDeclarations`).
-/

namespace SceneShading

/-- The declaration of the position attribute. -/
def positionDeclaration : String := "attribute vec3 Vertex;"

/-- The position stands ahead of its targets. -/
lemma positionDeclaration_lt (rest : String) :
    positionDeclaration < "attribute vec3 Vertex_" ++ rest := by
  have hposition : positionDeclaration.toList = "attribute vec3 Vertex".toList ++ [';'] := by decide
  have htarget : ("attribute vec3 Vertex_" ++ rest).toList =
      "attribute vec3 Vertex".toList ++ '_' :: rest.toList := by
    rw [String.toList_append]
    rfl
  rw [String.lt_iff_toList_lt, hposition, htarget]
  exact List.append_left_lt (List.cons_lt_cons_iff.2 (.inl (by decide)))

namespace Graph

variable {g : Graph} {roots : List NodeId} {count : Nat} {d : String}

/-- A declaration of a woven graph that mentions a vertex is that of the position or of a target. -/
lemma Woven.eq_of_mentionsVertex (h : g.Woven count) (hd : d ∈ g.fileDeclarations roots)
    (hmentions : MentionsVertex d) :
    d = positionDeclaration ∨ ∃ rest, d = "attribute vec3 Vertex_" ++ rest := by
  obtain ⟨v, hv, hdeclaration⟩ := mem_fileDeclarations.1 hd
  obtain ⟨id, -, hdeclared, -⟩ := mem_fileVariables.1 hv
  rcases Variable.firstLetter_globalDeclaration hdeclaration with ⟨hcls, rfl⟩ | hletter
  · have hmem : 'V' ∈ v.type.toList ∨ 'V' ∈ v.name.toList := by
      have hletter : 'V' ∈ "Vertex".toList := by decide
      have hmem := hmentions.2.subset hletter
      have hwords : 'V' ∉ "attribute ".toList ∧ 'V' ∉ " ".toList ∧ 'V' ∉ ";".toList := by decide
      simp only [String.toList_append, List.mem_append, hwords, false_or, or_false] at hmem
      exact hmem
    obtain ⟨htype, hname⟩ := (h.isTold hdeclared).position hcls hmem
    rcases hname with hname | ⟨rest, hname⟩
    · exact .inl (by rw [htype, hname]; decide)
    · refine .inr ⟨rest ++ ";", ?_⟩
      have hwords : "attribute " ++ ("vec3" ++ (" " ++ "Vertex_")) = "attribute vec3 Vertex_" := by
        decide
      rw [htype, hname, ← hwords]
      simp only [String.append_assoc]
  · obtain ⟨⟨rest, hrest⟩, -⟩ := hmentions
    rw [firstLetter, ← hrest] at hletter
    rcases hletter with hletter | hletter <;> cases hletter

/-- In a woven graph whose roots draw on the position attribute, its declaration is the first one. -/
lemma Woven.head?_fileDeclarations (h : g.Woven count) {root : NodeId} (hroot : root ∈ roots)
    (hdraws : g.Draws root "Vertex") :
    (g.fileDeclarations roots).head? = some positionDeclaration := by
  have hposition : positionDeclaration ∈ g.fileDeclarations roots := by
    obtain ⟨id, v, hreaches, hv, hname⟩ := hdraws
    obtain ⟨w, hw, hcls⟩ := h.isAttribute hv (hname ▸ of_decide_eq_true rfl)
    rw [hv] at hw
    cases hw
    have htold := (h.isTold hv).position hcls (.inr (by rw [hname]; decide))
    obtain ⟨n, hn, -⟩ := Option.bind_eq_some_iff.1 hv
    have hlisted := mem_traverse_of_reaches hroot hreaches (Option.isSome_of_eq_some hn)
    have hdeclaration : v.globalDeclaration = some positionDeclaration := by
      rw [Variable.globalDeclaration, hcls, hname, htold.1]
      rfl
    refine mem_fileDeclarations.2 ⟨v, mem_fileVariables.2 ⟨id, hlisted, hv, ?_⟩, hdeclaration⟩
    rw [hdeclaration, Option.isSome_some]
  have hmentions : MentionsVertex positionDeclaration := ⟨⟨"vec3 Vertex;".toList, by decide⟩,
    "attribute vec3 ".toList, ";".toList, by decide⟩
  have hordered := (g.declares_globalBlock roots).order
  have hvertex := @Woven.eq_of_mentionsVertex g roots count
  rw [h.stage] at hordered
  generalize g.fileDeclarations roots = entries at hposition hordered hvertex
  cases hordered with
  | unmoved _ hnone => exact absurd hmentions (hnone _ hposition)
  | @moved before after first hsorted hfirst hahead =>
    rw [List.head?_cons, Option.some.injEq]
    refine (hvertex h List.mem_cons_self hfirst).resolve_right ?_
    rintro ⟨rest, htarget⟩
    have hlt : positionDeclaration < first := htarget ▸ positionDeclaration_lt rest
    rcases List.mem_cons.1 hposition with heq | hmem
    · exact String.lt_irrefl _ (heq ▸ hlt)
    · rcases List.mem_append.1 hmem with hbefore | hafter
      · exact hahead _ hbefore hmentions
      · have hle := (List.pairwise_cons.1 (List.pairwise_append.1 hsorted).2.1).1 _ hafter
        exact String.not_le.2 hlt hle

end Graph

namespace VertexGraph

/-- What a generated fragment graph asks for, the vertex stage knows. -/
lemma Carried.isServed {name type : String} (h : Carried name type) : IsServed name := by
  cases h with
  | texCoord unit => exact .inr ⟨unit, rfl⟩
  | _ => exact .inl (by decide)

end VertexGraph

namespace Context

/-- **The position attribute is declared first.** What a graph declares at file scope are the variables
that its roots reach, one declaration for each of these nodes, in ascending order but for the first
attribute of a vertex stage that mentions a vertex, which is first, and with an empty line exactly where
the first letters of neighbours differ. In the vertex stage of a generated program, whatever its
attributes and texture units, the first declaration is that of the position, and the block stands in the
source. -/
theorem compileProgram_leads :
    (∀ (g : Graph) (roots : List NodeId), g.Declares roots (g.fileDeclarations roots)
      (globalBlock g.stage (g.nodesOf (g.traverse roots)))) ∧
    ∀ (ctx : Context) (attributes : List Attribute) (units : List (List Attribute)),
      let roles := Roles.ofAttributes attributes units
      let vertex := roles.vertexGraph ctx.boneLimits roles.fragmentGraph.graph
      ∃ program : CompiledProgram, ctx.compileProgram roles none = .ok program ∧
        program.vertex = ctx.compile vertex.graph vertex.roots ∧ vertex.graph.stage = .vertex ∧
          (vertex.graph.fileDeclarations vertex.roots).head? = some "attribute vec3 Vertex;" ∧
            (ctx.library = {} →
              (globalBlock .vertex (vertex.graph.nodesOf (vertex.graph.traverse vertex.roots))).toList <:+:
                program.vertex.source.toList) := by
  refine ⟨fun g roots => g.declares_globalBlock roots, fun ctx attributes units => ?_⟩
  intro roles vertex
  obtain ⟨hfragment, -⟩ := roles.sound_fragmentGraph
  obtain ⟨hvertex, -⟩ := roles.sound_vertexGraph ctx.boneLimits hfragment
  have hserved : ∀ e ∈ roles.fragmentGraph.graph.varyings, VertexGraph.IsServed e.1 := by
    intro e he
    obtain ⟨v, -, -, hname, hcarried⟩ := hfragment.varyings e he
    exact hname ▸ VertexGraph.Carried.isServed hcarried
  obtain ⟨hwoven, position, hposition, hdraws⟩ := roles.woven_vertexGraph ctx.boneLimits hserved
  refine ⟨_, compileProgram_of_fault ctx roles hvertex.fault, rfl, hwoven.stage,
    hwoven.head?_fileDeclarations hposition hdraws, fun hlibrary => ?_⟩
  rw [compile, hlibrary, ← hwoven.stage]
  exact (HasBlock.refl _).infix_compileStage List.mem_cons_self hvertex.isPlain_globalBlock .common

end Context

end SceneShading
