import Mathlib.Tactic
import SceneShading.Proofs.Codegen.Arguments
import SceneShading.Proofs.Program.Filtering
import SceneShading.Proofs.Program.Interface
import SceneShading.Proofs.Program.Typing

/-!
# Arguments of generated programs

The graphs of generated programs are well typed (`Roles.typed_fragmentGraph`,
`Roles.typed_vertexGraph`), so what is known about the arguments of well-typed nodes holds of all their
statements. Combinations take components that are there, in both stages
(`Context.compileProgram_swizzles`).

Samplers are passed with the types of their texture units, and are declared with them
(`Context.compileProgram_samples`). The library reads flat textures only. A receiver of shadows always
passes a flat sampler, but a texture read passes the sampler of a cube map where the first texture of a
unit is one and no shadow map of the unit is read. No diagnostic tells of it.
-/

namespace SceneShading

open Source Text

/-! ## Combinations -/

/-- The source of the stage shows the statements of the graph, and combinations among them combine
operands that fit into their targets. -/
structure CompiledStage.Swizzles (ctx : Context) (g : Graph) (roots : List NodeId)
    (c : CompiledStage) : Prop where
  shows : ctx.library = {} → c.Shows ctx.settings g roots
  combinations : ∀ e ∈ g.statements ctx.settings.debugNodes roots,
    e.1.kind.isCombination = true → e.2.IsSwizzled

namespace Context

/-- A graph that is sound and well typed is compiled to combinations that fit. -/
lemma swizzles_compile (ctx : Context) {samplerType : Nat → String} {g : Graph} {roots : List NodeId}
    (hsound : g.Sound roots) (htyped : g.Typed samplerType) (hroots : roots ≠ []) :
    (ctx.compile g roots).Swizzles ctx g roots where
  shows hlibrary := by
    rw [compile, hlibrary]
    exact hsound.shows_compileStage .common ctx.settings hroots
  combinations e he hkind := htyped.isSwizzled he hkind

/-- **Combinations take components that are there.** Whatever the attributes and texture units, a
program is generated, and in both of its stages every statement for a sum, a product or an assignment
combines operands that have components, at least as many as are taken of them; what is combined into a
float are floats. -/
theorem compileProgram_swizzles (ctx : Context) (attributes : List Attribute)
    (units : List (List Attribute)) :
    let roles := Roles.ofAttributes attributes units
    let fragment := roles.fragmentGraph
    let vertex := roles.vertexGraph ctx.boneLimits fragment.graph
    ∃ program : CompiledProgram, ctx.compileProgram roles none = .ok program ∧
      program.fragment.Swizzles ctx fragment.graph fragment.roots ∧
        program.vertex.Swizzles ctx vertex.graph vertex.roots := by
  intro roles fragment vertex
  have hsound := roles.sound_fragmentGraph.1
  have hfragment : fragment.graph.Sound fragment.roots := hsound.mono (List.nil_subset _)
  have hvertex : vertex.graph.Sound vertex.roots :=
    (roles.sound_vertexGraph ctx.boneLimits hsound).1
  have htyped : vertex.graph.Typed roles.samplerType := roles.typed_vertexGraph _ hsound
  refine ⟨_, compileProgram_of_fault ctx roles hvertex.fault, ?_, ?_⟩
  · exact ctx.swizzles_compile hfragment roles.typed_fragmentGraph roles.roots_fragmentGraph
  · exact ctx.swizzles_compile hvertex htyped (roles.roots_vertexGraph _ _)

end Context

/-! ## Samplers -/

/-- The line that declares the function which reads colors: it takes a flat texture. -/
def Source.textureHeader : List Char :=
  "vec4 textureRGBA(const in sampler2D texture, const in vec2 uv) \x7b".toList

/-- The source declares the sampler of a texture unit with a type. -/
def CompiledStage.DeclaresSampler (c : CompiledStage) (unit : Nat) (type : String) : Prop :=
  ("uniform " ++ (type ++ " " ++ samplerName unit) ++ ";").toList <:+: c.source.toList

/-- Texture reads pass the sampler of a texture unit to a function that takes a flat one, and receivers
of shadows pass data and flat samplers. All these samplers are declared with their types, and there is no
problem. -/
structure CompiledStage.Samples (settings : Settings) (samplerType : Nat → String) (g : Graph)
    (roots : List NodeId) (c : CompiledStage) : Prop where
  diagnostics : c.diagnostics = []
  textures : ∀ n target args note,
    (n, .call "textureRGBA" target args note) ∈ g.statements settings.debugNodes roots →
      textureHeader ∈ linesOf c.source.toList ∧ ∃ unit uv,
        args = [.whole ⟨samplerName unit, some (samplerType unit)⟩, ⟨uv, ".xy"⟩] ∧
          uv.type = some "vec2" ∧ c.DeclaresSampler unit (samplerType unit)
  shadows : ∀ n target args note,
    (n, .call "computeShadow" target args note) ∈ g.statements settings.debugNodes roots →
      ∀ a ∈ args, (∃ type ∈ dataTypes, a.operand.type = some type) ∨
        ∃ unit, a.operand = ⟨samplerName unit, some "sampler2D"⟩ ∧
          c.DeclaresSampler unit "sampler2D"

/-- Only nodes that read colors have the name of their type. -/
lemma Node.kind_of_typeName {n : Node} (h : n.typeName = "TextureRGBA") : n.kind = .texture .rgba := by
  unfold typeName at h
  generalize n.kind = kind at h
  cases kind with
  | texture fetch => cases fetch <;> first | rfl | simp +decide at h
  | var v => obtain ⟨cls, _, _, _, _⟩ := v; cases cls <;> simp +decide [NodeKind.typeName] at h
  | output b => cases b <;> simp +decide at h
  | matrixMult m => obtain ⟨role, _, _, _⟩ := m; cases role <;> simp +decide [NodeKind.typeName] at h
  | function f => cases f <;> simp +decide at h
  | light model => cases model <;> simp +decide at h
  | _ => simp +decide [NodeKind.typeName] at h

namespace Graph

variable {g : Graph} {roots : List NodeId} {samplerType : Nat → String}

/-- The library file of texture reads is included where colors are read. -/
lemma includeLine_textures_mem {n : Node} {nodes : List Node} (hn : n ∈ nodes)
    (hkind : n.kind = .texture .rgba) : Node.includeLine "textures.glsl" ∈ collectFunctions nodes := by
  -- the first node of the type speaks for it
  obtain ⟨m, hm, hname⟩ := @exists_mem_firstByKey _ Node.typeName nodes n hn
  have hfirst : m.kind = .texture .rgba :=
    m.kind_of_typeName (hname.trans (by rw [Node.typeName, hkind]; rfl))
  exact List.mem_filterMap.2 ⟨m, hm, by rw [Node.functionDeclaration, hfirst]⟩

/-- The function that reads colors is declared in the source where it is called. -/
lemma textureHeader_mem (settings : Settings) {n : Node}
    (hn : n ∈ g.nodesOf (g.traverse roots)) (hkind : n.kind = .texture .rgba) :
    textureHeader ∈ linesOf (compileStage .common {} settings g roots).source.toList := by
  obtain ⟨after, hlines⟩ : ∃ after,
      linesOf Builtin.textures.toList = [] ++ ([textureHeader] ++ after) :=
    ⟨_, linesOf_ofLines (by repeat' constructor) (by decide +kernel)⟩
  have hplain : ∀ line ∈ [textureHeader], Include.ofLine? line = none ∧ '\r' ∉ line := by
    decide +kernel
  have hreached := reached_of_mem_collectFunctions settings
    (MainBody.ofNodes g settings.debugNodes (g.nodesOf (g.traverse roots)))
    (includeLine_textures_mem hn hkind) (by decide) (by decide)
  have hinfix := infix_linesOf_process .common settings
    (collectExtensions (g.nodesOf (g.traverse roots))) hreached rfl hlines hplain
  rw [source_compileStage]
  exact hinfix.subset List.mem_cons_self

/-- A sampler that a statement names is declared. -/
lemma Typed.declaresSampler (h : g.Typed samplerType) (hsound : g.Sound roots) {settings : Settings}
    {e : Node × Statement} (he : e ∈ g.statements settings.debugNodes roots) {unit : Nat}
    {type : Option String} (hnamed : ⟨samplerName unit, type⟩ ∈ e.2.operands) :
    (compileStage .common {} settings g roots).DeclaresSampler unit (samplerType unit) := by
  obtain ⟨v, hv, hcls, hname, htype⟩ := h.exists_sampler hsound he hnamed
  have hdeclaration : v.globalDeclaration =
      some ("uniform " ++ (samplerType unit ++ " " ++ samplerName unit) ++ ";") := by
    rw [Variable.globalDeclaration, hcls, hname, htype]
  obtain ⟨id, -, hdeclared, -⟩ := mem_fileVariables.1 hv
  refine infix_globalDeclaration hv hdeclaration ?_ .common settings
  exact (Sound.isPlain_declaration (hsound.fits id v hdeclared)).1 _ hdeclaration

/-- A graph that is sound and well typed is compiled to calls with samplers of texture units. -/
lemma Typed.samples_compileStage (h : g.Typed samplerType) (hsound : g.Sound roots)
    (settings : Settings) (hroots : roots ≠ []) :
    (compileStage .common {} settings g roots).Samples settings samplerType g roots where
  diagnostics := hsound.diagnostics_compileStage .common settings hroots
  textures n target args note hs := by
    obtain ⟨unit, uv, rfl, huv⟩ := h.arguments_textureRGBA hs
    have hnamed : ⟨samplerName unit, some (samplerType unit)⟩ ∈ (Statement.call "textureRGBA" target
        [.whole ⟨samplerName unit, some (samplerType unit)⟩, ⟨uv, ".xy"⟩] note).operands :=
      List.mem_cons_of_mem _ List.mem_cons_self
    refine ⟨?_, unit, uv, rfl, huv, h.declaresSampler hsound hs hnamed⟩
    obtain ⟨id, hid, hn, -⟩ := mem_statements.1 hs
    exact textureHeader_mem settings (mem_nodesOf.2 ⟨id, hid, hn⟩)
      (NodeKind.eq_texture_of_function? (function?_of_mem_statements hs).symm)
  shadows n target args note hs a ha := by
    refine (h.arguments_computeShadow hs a ha).imp_right ?_
    rintro ⟨unit, hoperand, hflat⟩
    have hnamed : a.operand ∈ (Statement.call "computeShadow" target args note).operands :=
      List.mem_cons_of_mem _ (List.mem_map_of_mem ha)
    rw [hoperand] at hnamed
    have hdeclared := h.declaresSampler hsound hs hnamed
    rw [hflat] at hoperand hdeclared
    exact ⟨unit, hoperand, hdeclared⟩

end Graph

namespace Context

/-- **Samplers are passed as they are declared.** Whatever the attributes and texture units, the program
is compiled without any problem, and each call of its fragment stage that reads a texture or receives
shadows passes samplers of texture units, which are declared with the types that they are passed with. In
shadows they are flat, and in texture reads they are flat unless the first texture of the unit is a cube
map and no shadow map of the unit is read: then the function, which takes a flat texture, is given the
sampler of a cube map. -/
theorem compileProgram_samples (settings : Settings) (catalogue : Catalogue) (limits : BoneLimits)
    (attributes : List Attribute) (units : List (List Attribute)) :
    let roles := Roles.ofAttributes attributes units
    let fragment := roles.fragmentGraph
    ∃ program : CompiledProgram,
      Context.compileProgram { settings, catalogue, boneLimits := limits } roles none = .ok program ∧
        program.fragment.Shows settings fragment.graph fragment.roots ∧
          program.fragment.Samples settings
            (fun unit => if roles.IsCube unit then "samplerCube" else "sampler2D")
            fragment.graph fragment.roots := by
  intro roles fragment
  have hsound : fragment.graph.Sound fragment.roots :=
    roles.sound_fragmentGraph.1.mono (List.nil_subset _)
  have hvertex := (roles.sound_vertexGraph limits roles.sound_fragmentGraph.1).1
  refine ⟨_, compileProgram_of_fault _ roles hvertex.fault, ?_, ?_⟩
  · exact hsound.shows_compileStage .common settings roles.roots_fragmentGraph
  · exact roles.typed_fragmentGraph.samples_compileStage hsound settings roles.roots_fragmentGraph

/-- A texture unit with a cube map. -/
def cubeUnits : List (List Attribute) := [[.texture { target := .cubeMap }]]

/-- The function that takes a flat texture is given the sampler of a cube map, which is declared as one.
There is no problem. -/
theorem compileProgram_samples_cubeMap :
    let fragment := (Roles.ofAttributes [.material {}] cubeUnits).fragmentGraph
    ∃ program : CompiledProgram,
      Context.compileProgram {} (Roles.ofAttributes [.material {}] cubeUnits) none = .ok program ∧
        program.fragment.diagnostics = [] ∧ textureHeader ∈ linesOf program.fragment.source.toList ∧
          program.fragment.DeclaresSampler 0 "samplerCube" ∧ ∃ n target uv note,
            (n, .call "textureRGBA" target [.whole ⟨"Texture0", some "samplerCube"⟩, uv] note) ∈
              fragment.graph.statements false fragment.roots := by
  intro fragment
  have hcalls : ∃ e ∈ fragment.graph.statements false fragment.roots,
      e.2.function? = some "textureRGBA" ∧
        e.2.operands[1]? = some ⟨"Texture0", some "samplerCube"⟩ := by
    decide +kernel
  have hcube : (Roles.ofAttributes [.material {}] cubeUnits).IsCube 0 := by decide
  obtain ⟨⟨n, s⟩, hs, hfunction, hoperand⟩ := hcalls
  obtain ⟨program, hprogram, -, hsamples⟩ := compileProgram_samples {} .builtin {} [.material {}] cubeUnits
  cases s with
  | call function target args note =>
    cases hfunction
    obtain ⟨hheader, unit, uv, rfl, -, hdeclares⟩ := hsamples.textures n target args note hs
    have hsampler := Option.some.inj hoperand
    have hunit : unit = 0 := append_toString_injective "Texture" (congrArg Operand.name hsampler)
    subst hunit
    rw [if_pos hcube] at hdeclares
    refine ⟨program, hprogram, hsamples.diagnostics, hheader, hdeclares, n, target, ⟨uv, ".xy"⟩, note, ?_⟩
    rw [← hsampler]
    exact hs
  | _ => cases hfunction

end Context

end SceneShading
