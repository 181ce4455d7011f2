import Mathlib.Tactic
import SceneShading.Program.Compile
import SceneShading.Proofs.Codegen.Compilation
import SceneShading.Proofs.Graph.Consistency

/-!
# The locals of `main`

A compiled `main` begins with one block that declares its locals: every registered variable that is not a
variable of file scope, reached or not. A graph may well have two locals of one name, since an unnamed
local takes over the name that it is given if somebody chose that name before. But the block is written
from the registry, where each name stands once (`Graph.Consistent`), so that it declares the local that
has the name last, and no name twice (`Graph.Consistent.declaresLocals`).
-/

namespace SceneShading

/-- The block that declares variables inside `main`; without variables there is none. -/
def varsBlock (vs : List Variable) : List String :=
  if vs.isEmpty then []
  else ["// vars\n" ++ " ".intercalate (vs.filterMap Variable.localDeclaration) ++ "\n// end vars\n"]

namespace Graph

variable {g : Graph}

/-- The variables that are declared inside `main` make its block. -/
lemma localBlock_eq_varsBlock (g : Graph) : localBlock g = varsBlock g.localVariables := by
  by_cases hlocals : g.localVariables = []
  · have hnone : g.registered.filterMap Node.localDeclaration = [] := by
      rw [filterMap_localDeclaration, hlocals, List.filterMap_nil]
    rw [localBlock, hnone, hlocals]
    rfl
  · rw [localBlock_eq hlocals, varsBlock, if_neg (by rwa [List.isEmpty_iff])]

/-- A compiled `main` begins with the block of its locals and ends with the statements. The locals are the
registered variables that live in `main`, and have different names. With the built-in library the block
stands in the source, if it has no signs of its own. -/
structure DeclaresLocals (ctx : Context) (g : Graph) (roots : List NodeId) : Prop where
  names : (g.localVariables.map (·.name)).Nodup
  declared : ∀ v, v ∈ g.localVariables ↔
    (∃ id, g.find? v.name = some id ∧ g.declared? id = some v) ∧ v.localDeclaration.isSome
  main : ∃ ahead : List String,
    let nodes := g.nodesOf (g.traverse roots)
    let lines := (MainBody.ofNodes g ctx.settings.debugNodes nodes).lines
    (ctx.compile g roots).source = (Source.process .common ctx.library ctx.settings
      ("\n".intercalate (ahead ++ ["void main() \x7b"] ++ varsBlock g.localVariables ++
        ["\n".intercalate lines, "\x7d"]))
      (collectDefines nodes) (collectExtensions nodes)).source
  source : ctx.library = {} → ∀ block ∈ varsBlock g.localVariables, IsPlain block →
    block.toList <:+: (ctx.compile g roots).source.toList

/-- A graph whose books agree declares no local twice. -/
lemma Consistent.declaresLocals (h : g.Consistent) (ctx : Context) (roots : List NodeId) :
    g.DeclaresLocals ctx roots where
  names := nodup_localNames h.ledger.nodup h.registered
  declared _ := mem_localVariables_iff h.ledger.nodup h.registered
  main := by
    refine ⟨["\n", globalBlock g.stage (g.nodesOf (g.traverse roots))] ++
      invariantBlock ctx.settings g.stage ++
        ["\n", "\n".intercalate (collectFunctions (g.nodesOf (g.traverse roots)))], ?_⟩
    rw [← localBlock_eq_varsBlock, Context.compile, compileStage, assemble]
    simp only [List.append_assoc, List.cons_append, List.nil_append]
    rfl
  source hlibrary block hblock hplain := by
    rw [← localBlock_eq_varsBlock] at hblock
    rw [Context.compile, hlibrary]
    exact infix_compileStage .common ctx.settings
      (List.mem_cons_of_mem _ (List.mem_append_left _ hblock)) hplain

/-- **The books of a graph agree, whatever was asked of it.** The number of each node is its place. The
order of registration lists each registered name once, and nothing else. A registered name stands for a
variable of that name. The varyings have different names, and each is a varying of its name. So whatever
is compiled from the graph declares no local of `main` twice. -/
theorem Reachable.books_agree (h : g.Reachable) :
    (∀ id n, g.node? id = some n → n.id = id) ∧
      (g.registry.names.Nodup ∧ ∀ name, name ∈ g.registry.names ↔ (g.find? name).isSome) ∧
      (∀ name id, g.find? name = some id → ∃ v, g.declared? id = some v ∧ v.name = name) ∧
      ((g.varyings.map (·.1)).Nodup ∧
        ∀ e ∈ g.varyings, ∃ v, g.declared? e.2 = some v ∧ v.cls = .varying ∧ v.name = e.1) ∧
      ∀ (ctx : Context) (roots : List NodeId), g.DeclaresLocals ctx roots := by
  have hbooks : g.Consistent := h.consistent
  refine ⟨hbooks.numbered, ⟨hbooks.ledger.nodup, hbooks.ledger.mem_order⟩, hbooks.registered,
    ⟨hbooks.varyings_nodup, hbooks.varyings⟩, hbooks.declaresLocals⟩

/-- A vertex graph for a varying whose name a uniform took over in the fragment graph. In the vertex graph
a uniform takes the name over once more, and an unnamed local the name of a local that was chosen to be
in its way. Each book has each name once, and `main` declares the local that came last. -/
theorem books_agree_takenOver :
    let fragment := (ofStage .fragment).afterAll [.varying "vec2" "vUv", .uniform "vec4" "vUv" none]
    let g := fragment.vertexFor.afterAll [.newLocal "float" (some "tmp_2") none,
      .newLocal "vec3" none (some "vec3(0.0)"), .uniform "float" "vUv" none,
      .wireInputs 0 (.positional [.node 9])]
    g.Reachable ∧ g.registry.names = ["vUv", "tmp_2"] ∧ g.varyings = [("vUv", 0)] ∧
      g.find? "vUv" = some 3 ∧ g.find? "tmp_2" = some 2 ∧
      (g.declared? 1).map (·.name) = some "tmp_2" ∧
      "// vars\nvec3 tmp_2 = vec3(0.0);\n// end vars\n".toList <:+:
        (Context.compile {} g [0]).source.toList := by
  intro fragment g
  have hreachable : g.Reachable :=
    (Reachable.vertexFor ((Reachable.ofStage .fragment).afterAll _)).afterAll _
  have hblock : varsBlock g.localVariables = ["// vars\nvec3 tmp_2 = vec3(0.0);\n// end vars\n"] := by
    decide +kernel
  have hsource := (hreachable.books_agree.2.2.2.2 {} [0]).source rfl
  rw [hblock] at hsource
  refine ⟨hreachable, by decide +kernel, by decide +kernel, by decide +kernel, by decide +kernel,
    by decide +kernel, hsource _ List.mem_cons_self (by decide)⟩

end Graph

end SceneShading
