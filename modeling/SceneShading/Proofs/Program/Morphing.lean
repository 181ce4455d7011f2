import Mathlib.Tactic
import SceneShading.Proofs.Codegen.Arguments
import SceneShading.Proofs.Codegen.MorphFunction
import SceneShading.Proofs.Codegen.Totality
import SceneShading.Proofs.Program.Attributes
import SceneShading.Proofs.Program.Delivery

/-!
# Morphing

Positions, normals and tangents are blended by calls of their own, but the function that they call is
written once, for the first morph that the walk comes to. The two agree because all morphs of a vertex
graph blend the same number of targets (`Graph.Woven`): the number of targets decides how many
parameters the function has (`Node.firstLine_morphFunction`) and how many arguments a call passes
(`Graph.Woven.arguments_morph`). A node that blends targets never fails to become a call
(`Node.Blends.exists_statement`), so the function is written exactly if it is called.
-/

namespace SceneShading

open Text

/-! ## Calls of blending nodes -/

/-- The source of a pin of a node that is wired to pins. -/
lemma Pins.input?_wired {pins : Pins} {n : Node} (hinputs : n.inputs = pins.wired) (pin : String) :
    n.input? pin = (pins.find? (·.1 == pin)).map fun p => .node p.2 := by
  rw [Node.input?, hinputs, wired, List.find?_map, Option.map_map]
  rfl

/-- The pins of targets have other names than those of the vertex and the weights. -/
lemma targetPin_ne (i : Nat) : targetPin i ≠ "vertex" ∧ targetPin i ≠ "weights" := by
  have hletters : letters (targetPin i) = letters "target" := by
    rw [targetPin, letters_append, letters_toString, List.append_nil]
  have hother : letters "target" ≠ letters "vertex" ∧ letters "target" ≠ letters "weights" := by
    decide
  exact ⟨fun heq => hother.1 (hletters.symm.trans (congrArg letters heq)),
    fun heq => hother.2 (hletters.symm.trans (congrArg letters heq))⟩

namespace Node.Blends

variable {count : Nat} {g : Graph} {n : Node}

/-- The pins that are wired. -/
lemma isSome_input?_iff (h : n.Blends count g) {pin : String} : (n.input? pin).isSome ↔
    pin = "vertex" ∨ pin = "weights" ∨ ∃ i < count, targetPin i = pin := by
  obtain ⟨vertex, weights, targets, hinputs, -, -, hnames, -⟩ := h.inputs
  have hmem : pin ∈ targets.map (·.1) ↔ ∃ i < count, targetPin i = pin := by
    rw [hnames]
    simp only [List.mem_map, List.mem_range]
  rw [Pins.input?_wired hinputs, Option.isSome_map, List.find?_isSome, ← hmem]
  simp only [List.mem_append, List.mem_cons, List.not_mem_nil, or_false, beq_iff_eq, List.mem_map]
  constructor
  · rintro ⟨p, (rfl | rfl) | hp, rfl⟩
    · exact .inl rfl
    · exact .inr (.inl rfl)
    · exact .inr (.inr ⟨p, hp, rfl⟩)
  · rintro (rfl | rfl | ⟨p, hp, rfl⟩)
    · exact ⟨("vertex", vertex), .inl (.inl rfl), rfl⟩
    · exact ⟨("weights", weights), .inl (.inr rfl), rfl⟩
    · exact ⟨p, .inr hp, rfl⟩

/-- The targets that are counted are those that are blended. -/
lemma targetCount_eq (h : n.Blends count g) (hcount : count ≤ maxMorphTargets) :
    n.targetCount = count := by
  have hwired : ∀ i, (n.input? (targetPin i)).isSome = decide (i < count) := by
    intro i
    rw [Bool.eq_iff_iff, decide_eq_true_iff, h.isSome_input?_iff]
    have hne := targetPin_ne i
    constructor
    · rintro (heq | heq | ⟨j, hj, heq⟩)
      · exact absurd heq hne.1
      · exact absurd heq hne.2
      · exact append_toString_injective "target" heq ▸ hj
    · exact fun hi => .inr (.inr ⟨i, hi, rfl⟩)
  have hcases : ∀ count ≤ maxMorphTargets,
      ((List.range maxMorphTargets).takeWhile fun i => decide (i < count)).length = count := by
    decide
  rw [targetCount]
  simp only [hwired]
  exact hcases count hcount

/-- What a target is wired to is an attribute. -/
lemma isAttribute_target (h : n.Blends count g) {i : Nat} {source : Source}
    (hsource : n.input? (targetPin i) = some source) :
    ∃ id, source = .node id ∧ g.IsAttribute id := by
  obtain ⟨vertex, weights, targets, hinputs, -, -, -, hattributes⟩ := h.inputs
  have hne := targetPin_ne i
  rw [Pins.input?_wired hinputs] at hsource
  obtain ⟨p, hfound, rfl⟩ := Option.map_eq_some_iff.1 hsource
  have hfind := List.find?_some hfound
  have hname : p.1 = targetPin i := beq_iff_eq.1 hfind
  have hp := List.mem_of_find?_eq_some hfound
  simp only [List.mem_append, List.mem_cons, List.not_mem_nil, or_false] at hp
  rcases hp with (rfl | rfl) | hp
  · exact absurd hname.symm hne.1
  · exact absurd hname.symm hne.2
  · exact ⟨p.2, rfl, hattributes p hp⟩

/-- A blending node has a statement. -/
lemma exists_statement (h : n.Blends count g) (hkind : n.kind = .morph) (debug : Bool) :
    ∃ s, g.checkedStatement debug n = .ok (some s) := by
  obtain ⟨out, hout, hoperand⟩ := h.output
  have hvalid : n.validate = .ok () := by
    rw [validate_eq_ok_iff, hkind]
    refine ⟨fun pin hpin => h.isSome_input?_iff.2 ?_, fun pin hpin => ?_⟩
    · change pin ∈ ["weights", "vertex", targetPin 0] at hpin
      simp only [List.mem_cons, List.not_mem_nil, or_false] at hpin
      rcases hpin with rfl | rfl | rfl
      · exact .inr (.inl rfl)
      · exact .inl rfl
      · exact .inr (.inr ⟨0, h.positive, rfl⟩)
    · obtain rfl := List.mem_singleton.1 hpin
      rw [hout]
      rfl
  have hinputs : ∀ e ∈ n.inputs, g.IsReadable e.2 := by
    obtain ⟨vertex, weights, targets, hinputs, hvertex, hweights, -, hattributes⟩ := h.inputs
    intro e he
    rw [hinputs] at he
    obtain ⟨p, hp, rfl⟩ := List.mem_map.1 he
    refine Graph.isSome_operand?_iff.1 ?_
    simp only [List.mem_append, List.mem_cons, List.not_mem_nil, or_false] at hp
    rcases hp with (rfl | rfl) | hp
    · exact hvertex
    · exact hweights
    · obtain ⟨v, hv, -⟩ := hattributes p hp
      exact Graph.isSome_operand? (Option.isSome_of_eq_some hv)
  have houtputs : ∀ id ∈ n.outputs.targets, g.IsData id := by
    rw [hout]
    exact List.forall_mem_singleton.2 (Graph.isSome_operand?_iff.1 hoperand)
  have htabled : n.kind.isTabled = true := by rw [hkind]; rfl
  obtain ⟨s, hs⟩ := (g.settles_statement debug n htabled hvalid).resolve_right
    fun ⟨pin, hblocks, _⟩ => Graph.not_blocks hinputs houtputs hblocks
  have hsome := Graph.isSome_of_statement hs
  rw [hkind] at hsome
  obtain ⟨t, rfl⟩ := Option.isSome_iff_exists.1 hsome
  refine ⟨t, ?_⟩
  rw [Graph.checkedStatement, hvalid]
  exact hs

end Node.Blends

/-! ## Calls -/

/-- Only morphs call the function that blends targets. -/
lemma NodeKind.eq_morph_of_function? {kind : NodeKind} (h : kind.function? = some "morphTransform") :
    kind = .morph := by
  cases kind with
  | morph => rfl
  | function f => cases f <;> simp [function?] at h
  | light model => cases model <;> simp [function?, LightModel.function] at h
  | texture fetch => cases fetch <;> simp [function?, TextureFetch.function] at h
  | _ => simp [function?] at h

namespace Graph

variable {g : Graph} {n : Node} {roots : List NodeId} {debug : Bool} {count : Nat}

/-- A morph becomes a call with an argument for the weights, one for the vertex, and one for each target,
which stands for what the pin of the target is wired to. -/
lemma leaves_statement_of_morph (hkind : n.kind = .morph) :
    Leaves (g.statement debug n) fun s => ∀ t ∈ s, ∃ target args note,
      t = .call "morphTransform" target args note ∧ args.length = 2 + n.targetCount ∧
        ∀ a ∈ args.drop 2, ∃ i, g.input n (targetPin i) = .ok a.operand := by
  have htargets : Leaves ((List.range n.targetCount).mapM fun i =>
      Argument.rgb <$> g.input n (targetPin i)) fun args => args.length = n.targetCount ∧
        ∀ a ∈ args, ∃ i, g.input n (targetPin i) = .ok a.operand := by
    have hread : ∀ i, Leaves (Argument.rgb <$> g.input n (targetPin i)) fun a =>
        ∃ i, g.input n (targetPin i) = .ok a.operand := by
      intro i
      have hinput : Leaves (g.input n (targetPin i)) fun o => g.input n (targetPin i) = .ok o :=
        fun _ ho => ho
      exact hinput.map fun o ho => ⟨i, ho⟩
    intro args hargs
    refine ⟨(Leaves.mapM _ args hargs).length_eq.symm.trans List.length_range, ?_⟩
    exact Leaves.forall_mapM (fun i _ => hread i) args hargs
  rw [statement, hkind]
  refine .some (.bind (.any _) fun target _ => .bind (.any _) fun weights _ => ?_)
  refine .bind (.any _) fun vertex _ => .bind htargets fun args hargs => .pure ?_
  refine ⟨_, _, _, rfl, ?_, hargs.2⟩
  rw [List.length_cons, List.length_cons, hargs.1]
  omega

/-- A call of the function that blends targets passes one argument for each of them, and two more. The
targets are attributes that the stage declares. -/
lemma Woven.arguments_morph (h : g.Woven count) (hcount : count ≤ maxMorphTargets) {target : Argument}
    {args : List Argument} {note : Option CallNote}
    (hs : (n, .call "morphTransform" target args note) ∈ g.statements debug roots) :
    args.length = 2 + count ∧ ∀ a ∈ args.drop 2, ∃ v ∈ g.fileVariables roots,
      v.cls = .attribute ∧ a.operand = ⟨v.name, some v.type⟩ := by
  have hkind := NodeKind.eq_morph_of_function? (function?_of_mem_statements hs).symm
  obtain ⟨_, _, _, heq, hlength, hinputs⟩ :=
    of_mem_statements hs (leaves_statement_of_morph hkind)
  cases heq
  obtain ⟨id, hid, hn, -⟩ := mem_statements.1 hs
  have hblends := h.morphs id n hn hkind
  rw [hblends.targetCount_eq hcount] at hlength
  refine ⟨hlength, fun a ha => ?_⟩
  obtain ⟨i, hinput⟩ := hinputs a ha
  rw [input] at hinput
  cases hsource : n.input? (targetPin i) with
  | none => rw [hsource] at hinput; cases hinput
  | some source =>
    obtain ⟨other, rfl, v, hv, hcls⟩ := hblends.isAttribute_target hsource
    have hoperand := operand?_of_declared? hv
    simp only [hsource, resolve, hoperand, Except.ok.injEq] at hinput
    obtain ⟨e, he, hwired⟩ := Option.map_eq_some_iff.1 hsource
    have hread : other ∈ n.inputNodes :=
      List.mem_filterMap.2 ⟨e, List.mem_of_find?_eq_some he, by rw [hwired, Source.node?]⟩
    have hexists : (g.node? other).isSome := by
      obtain ⟨m, hm, -⟩ := Option.bind_eq_some_iff.1 hv
      rw [hm, Option.isSome_some]
    refine ⟨v, mem_fileVariables.2 ⟨other, mem_traverse_of_input hid hn hread hexists, hv, ?_⟩, hcls,
      hinput.symm⟩
    rw [Variable.globalDeclaration, hcls]
    rfl

/-- A morph that the roots reach is called. -/
lemma Woven.exists_call (h : g.Woven count) (hn : n ∈ g.nodesOf (g.traverse roots))
    (hkind : n.kind = .morph) (debug : Bool) :
    ∃ e ∈ g.statements debug roots, e.2.function? = some "morphTransform" := by
  obtain ⟨id, hid, hid'⟩ := mem_nodesOf.1 hn
  obtain ⟨s, hs⟩ := (h.morphs id n hid' hkind).exists_statement hkind debug
  have hstatement : g.statement debug n = .ok (some s) := by
    rw [checkedStatement] at hs
    split at hs
    · exact hs
    · cases hs
  obtain ⟨target, args, note, rfl, -⟩ := leaves_statement_of_morph hkind _ hstatement s rfl
  have hwrites : target.operand ∈ (Statement.call "morphTransform" target args note).writes :=
    List.mem_cons_self
  exact ⟨_, mem_statements.2 ⟨id, hid, hid', hs, Statement.isEmpty_render hwrites⟩, rfl⟩

/-- The morph function is a block of the source. -/
lemma infix_morphFunction {d : String} (hd : d ∈ g.morphFunctions roots) (pool : SymbolPool)
    (settings : Settings) :
    d.toList <:+: (compileStage pool {} settings g roots).source.toList := by
  obtain ⟨n, hn, rfl⟩ := List.mem_map.1 hd
  obtain ⟨hfirst, hkind⟩ := List.mem_filter.1 hn
  have hmem : n.morphFunction ∈ collectFunctions (g.nodesOf (g.traverse roots)) :=
    List.mem_filterMap.2 ⟨n, hfirst, by rw [Node.functionDeclaration, of_decide_eq_true hkind]⟩
  have hpart : "\n".intercalate (collectFunctions (g.nodesOf (g.traverse roots))) ∈
      globalBlock g.stage (g.nodesOf (g.traverse roots)) :: (invariantBlock settings g.stage ++
        ["\n", "\n".intercalate (collectFunctions (g.nodesOf (g.traverse roots))), "void main() \x7b"] ++
        localBlock g ++ ["\n".intercalate (MainBody.ofNodes g settings.debugNodes
          (g.nodesOf (g.traverse roots))).lines]) := by
    simp only [List.mem_cons, List.mem_append, true_or, or_true]
  obtain ⟨before, after, hsplit⟩ := @exists_intercalate_eq "\n" _ "\n" "\x7d" _ hpart
  exact (HasBlock.of_mem_intercalate hmem).infix_of_assemble_eq ((assemble_eq _ _ _ _).trans hsplit)
    (Sound.isPlain_morphFunction n) pool

end Graph

/-! ## Vertex stages -/

/-- The stage has the morph function if a statement calls it, and has it once. In the source, it is the
only one that is declared at file scope, if the version and the types of varyings are on one line each.
Every call passes an argument for each of its parameters, and the targets among them are attributes that
the source declares. -/
structure CompiledStage.Morphs (settings : Settings) (g : Graph) (roots : List NodeId)
    (c : CompiledStage) : Prop where
  called : (∃ d, d ∈ g.morphFunctions roots) ↔
    ∃ e ∈ g.statements settings.debugNodes roots, e.2.function? = some "morphTransform"
  single : (g.morphFunctions roots).length ≤ 1
  source : ∀ d ∈ g.morphFunctions roots, d.toList <:+: c.source.toList
  declared : '\n' ∉ settings.glslVersion.toList →
    (∀ v ∈ g.fileVariables roots, v.cls = .varying → '\n' ∉ v.type.toList) →
      c.morphDeclarations = (g.morphFunctions roots).map firstLine
  arguments : ∀ n target args note,
    (n, .call "morphTransform" target args note) ∈ g.statements settings.debugNodes roots →
      (∀ d ∈ g.morphFunctions roots, args.length = parameterCount (firstLine d)) ∧
        ∀ a ∈ args.drop 2, ∃ v ∈ g.fileVariables roots, v.cls = .attribute ∧
          a.operand = ⟨v.name, some v.type⟩ ∧
            ("attribute " ++ (v.type ++ " " ++ v.name) ++ ";").toList <:+: c.source.toList

namespace Graph

variable {g : Graph} {roots : List NodeId} {count : Nat}

/-- A woven graph is compiled to calls that agree with the morph function. -/
lemma Woven.morphs_compileStage (h : g.Woven count) (hcount : count ≤ maxMorphTargets)
    (pool : SymbolPool) (settings : Settings) :
    (compileStage pool {} settings g roots).Morphs settings g roots where
  called := by
    constructor
    · rintro ⟨d, hd⟩
      obtain ⟨n, hn, hkind, -⟩ := exists_of_mem_morphFunctions hd
      exact h.exists_call hn hkind settings.debugNodes
    · rintro ⟨⟨n, s⟩, hs, hcalls⟩
      have hkind := NodeKind.eq_morph_of_function? ((function?_of_mem_statements hs).symm.trans hcalls)
      obtain ⟨id, hid, hn, -⟩ := mem_statements.1 hs
      exact exists_mem_morphFunctions (mem_nodesOf.2 ⟨id, hid, hn⟩) hkind
  single := g.length_morphFunctions roots
  source d hd := infix_morphFunction hd pool settings
  declared hversion hvaryings := by
    refine morphDeclarations_compileStage hversion (fun v hv => ?_) pool
    obtain ⟨id, -, hdeclared, hglobal⟩ := mem_fileVariables.1 hv
    obtain ⟨hname, htype⟩ := (h.isTold hdeclared).line hglobal
    refine ⟨?_, hname.2⟩
    by_cases hcls : v.cls = .varying
    · exact hvaryings v hv hcls
    · exact (htype hcls).2
  arguments n target args note hs := by
    obtain ⟨hlength, htargets⟩ := h.arguments_morph hcount hs
    refine ⟨fun d hd => ?_, fun a ha => ?_⟩
    · obtain ⟨m, hm, hkind, rfl⟩ := exists_of_mem_morphFunctions hd
      obtain ⟨id, -, hm⟩ := mem_nodesOf.1 hm
      have hblends := h.morphs id m hm hkind
      have hpositive := hblends.positive
      rw [hlength, m.firstLine_morphFunction.2, hblends.targetCount_eq hcount]
      omega
    · obtain ⟨v, hv, hcls, hoperand⟩ := htargets a ha
      obtain ⟨id, -, hdeclared, hglobal⟩ := mem_fileVariables.1 hv
      obtain ⟨hname, htype⟩ := (h.isTold hdeclared).line hglobal
      have hplain : IsPlain ("attribute " ++ (v.type ++ " " ++ v.name) ++ ";") := by
        have htyped := (htype (by rw [hcls]; exact nofun)).1
        simp only [isPlain_append, htyped, hname.1, and_true, true_and]
        decide
      refine ⟨v, hv, hcls, hoperand, infix_globalDeclaration hv ?_ hplain pool settings⟩
      rw [Variable.globalDeclaration, hcls]

end Graph

/-- No more targets are blended than there are weights for. -/
lemma VertexGraph.blendedTargets_le (roles : Roles) : blendedTargets roles ≤ maxMorphTargets := by
  rw [blendedTargets]
  cases roles.morph with
  | none => exact Nat.zero_le _
  | some m => exact Nat.min_le_right _ _

/-- The name of a varying that is served has a first character of its own. -/
lemma VertexGraph.IsServed.not_isCut {name : String} (h : IsServed name) : ¬IsCut name := by
  rintro ⟨hmark, hnone⟩
  obtain ⟨unit, hattribute⟩ := h.texCoordAttribute? hmark
  rw [hnone] at hattribute
  cases hattribute

/-- **Calls of the morph function agree with its declaration.** Whatever the attributes are, and whichever
of the varyings that a vertex stage knows the fragment graph asks for, a program is generated, and its
vertex stage declares the morph function exactly if some statement calls it. There is one declaration, each
call passes as many arguments as it has parameters, and all targets are declared attributes. -/
theorem Context.compileFor_morphs (settings : Settings) (catalogue : Catalogue) (limits : BoneLimits)
    (attributes : List Attribute) (units : List (List Attribute)) (fragment : RootedGraph)
    (hserved : ∀ e ∈ fragment.graph.varyings, VertexGraph.IsServed e.1) :
    let roles := Roles.ofAttributes attributes units
    let vertex := roles.vertexGraph limits fragment.graph
    ∃ program : CompiledProgram,
      Context.compileFor { settings, catalogue, boneLimits := limits } roles fragment = .ok program ∧
        program.vertex.Morphs settings vertex.graph vertex.roots := by
  intro roles vertex
  have hfault : vertex.graph.fault = none := (roles.whole_vertexGraph limits
    fun e he => (hserved e he).not_isCut).1.fault
  have hwoven := (roles.woven_vertexGraph limits hserved).1
  refine ⟨⟨Context.compile { settings, catalogue, boneLimits := limits } vertex.graph vertex.roots,
    Context.compile { settings, catalogue, boneLimits := limits } fragment.graph fragment.roots⟩, ?_,
    hwoven.morphs_compileStage (VertexGraph.blendedTargets_le roles) .common settings⟩
  unfold compileFor
  dsimp only
  rw [hfault]

/-- A surface with more targets than there are weights for, of positions and normals. -/
def manyTargets : List Attribute :=
  [.morph { enabled := true, targetCount := 6, targetNames := ["Vertex", "Normal"] }]

/-- A fragment graph that asks for normals and for texture coordinates. -/
def shadedFragment : RootedGraph where
  graph := {
    stage := .fragment
    nodes := #[
      { id := 0, kind := .var { cls := .varying, type := "vec3", name := "vViewNormal" } },
      { id := 1, kind := .var { cls := .varying, type := "vec2", name := "vTexCoord2" } }]
    varyings := [("vViewNormal", 0), ("vTexCoord2", 1)] }
  roots := [0, 1]

/-- Its vertex stage calls the morph function, as it is declared. -/
theorem Context.compileFor_morphs_manyTargets :
    let roles := Roles.ofAttributes manyTargets []
    let vertex := roles.vertexGraph {} shadedFragment.graph
    (∀ e ∈ shadedFragment.graph.varyings, VertexGraph.IsServed e.1) ∧
      (∃ e ∈ vertex.graph.statements false vertex.roots, e.2.function? = some "morphTransform") ∧
        ∃ program : CompiledProgram, Context.compileFor {} roles shadedFragment = .ok program ∧
          program.vertex.Morphs {} vertex.graph vertex.roots := by
  intro roles vertex
  have hserved : ∀ e ∈ shadedFragment.graph.varyings, VertexGraph.IsServed e.1 := by
    refine List.forall_mem_cons.2 ⟨.inl (by decide), List.forall_mem_singleton.2 (.inr ⟨2, rfl⟩)⟩
  exact ⟨hserved, by decide +kernel, compileFor_morphs {} .builtin {} manyTargets [] shadedFragment hserved⟩

end SceneShading
