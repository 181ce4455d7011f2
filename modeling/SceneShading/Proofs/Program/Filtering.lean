import Mathlib.Tactic
import SceneShading.Proofs.Codegen.Filtering
import SceneShading.Proofs.Program.Complete
import SceneShading.Proofs.Program.Delivery

/-!
# Shadows are filtered as the first receiver says

Every receiver of shadows becomes a call with an argument for each pin of its own configuration, but
all calls are calls of one function, which the library declares once. Definitions and extensions are
collected once for each type of node, so that the first receiver that the roots reach decides which
parameters this function has (`Graph.length_receiveParameters_compileStage`) and which definition lines
the source has (`Graph.define_mem_linesOf_iff`).

A program whose receivers are configured alike is filtered as they say. If they are not, then a
receiver is filtered as it was configured exactly if the first one defines all that its configuration
defines (`Context.compileProgram_filters`); otherwise its call and the declaration differ, and no
diagnostic tells of it.
-/

namespace SceneShading

open Source Text

/-- The configuration of the first receiver that the roots reach. It speaks for all receivers. -/
def Graph.speaker? (g : Graph) (roots : List NodeId) : Option ShadowConfig :=
  (g.nodesOf (g.traverse roots)).findSome? Node.receives?

/-- A call of the function that receives shadows is filtered as it was configured: the lines of the
configuration are in the source, and where they are, the function has as many parameters as the call
has arguments. -/
structure CompiledStage.Filters (c : CompiledStage) (config : ShadowConfig) (args : List Argument) :
    Prop where
  lines : ∀ line ∈ config.defines ++ config.extensions, line.toList ∈ linesOf c.source.toList
  arity : args.length = (receiveParameters (definesName c.source)).length

namespace Graph

variable {g : Graph} {n : Node} {roots : List NodeId} {roles : Roles} {settings : Settings}
  {config speaker : ShadowConfig}

/-- A receiver becomes a call with an argument for each pin of its configuration. -/
lemma Sound.yields_receive (h : g.Sound roots) {id : NodeId} (hn : g.node? id = some n)
    (hreceives : n.kind = .shadowReceive config) (debug : Bool) :
    Yields (g.checkedStatement debug n) fun s => ∃ target args note,
      s = some (.call "computeShadow" target args note) ∧ args.length = config.receivePins.length := by
  have hwired := (h.settled id n hn).wiring (by rw [hreceives]; rfl)
  obtain ⟨hvalid, -⟩ := hwired.complete
  obtain ⟨hinputs, houtputs⟩ := n.validate_eq_ok_iff.1 hvalid
  rw [hreceives] at hinputs houtputs
  rw [checkedStatement, hvalid]
  simp only [statement, hreceives, receiveOf]
  refine .map (p := fun s => ∃ target args note, s = .call "computeShadow" target args note ∧
    args.length = config.receivePins.length) ?_ ?_
  · refine .bind (yields_output h.plainOperands hwired (houtputs _ List.mem_cons_self)) fun target _ => ?_
    refine .bind (yields_wholeInputs h.plainOperands hwired hinputs) fun args hargs => ?_
    exact .pure ⟨_, args, _, rfl, hargs.2⟩
  · rintro s ⟨target, args, note, rfl, hlength⟩
    exact ⟨target, args, note, rfl, hlength⟩

/-- The line that names the program defines no name of a configuration. -/
lemma nameOf?_programName (roles : Roles) :
    ShadowConfig.nameOf? (defineLine "SHADER_NAME" roles.programName) = some "SHADER_NAME" := by
  unfold Roles.programName
  split
  · decide +kernel
  · split <;> decide +kernel

lemma ne_of_mem_defines {line : String} (hline : line ∈ config.defines) :
    line ≠ defineLine "SHADER_NAME" roles.programName := by
  rintro rfl
  obtain ⟨name, value, hparsed, hmarked, -⟩ := ShadowConfig.exists_name_of_mem_defines hline
  have hname := nameOf?_programName roles
  rw [ShadowConfig.nameOf?, hparsed] at hname
  cases hname
  exact absurd hmarked (by rw [IsMarked]; decide)

/-- The extensions of a configuration are on one line, and define nothing. -/
lemma unmarked_of_mem_extensions {extension : String} (h : extension ∈ config.extensions) :
    (∀ piece ∈ split (· == '\n') extension.toList, Unmarked piece) ∧
      ∀ c ∈ extension.toList, c ≠ '\n' ∧ c ≠ '\r' := by
  have hchecked : (split (· == '\n') ShadowConfig.derivativesExtension.toList).all isUnmarked = true ∧
      ShadowConfig.derivativesExtension.toList.all (fun c => c != '\n' && c != '\r') = true := by
    decide +kernel
  have heq : extension = ShadowConfig.derivativesExtension := by
    rw [ShadowConfig.extensions] at h
    split at h
    · exact List.mem_singleton.1 h
    · cases h
  rw [heq]
  refine ⟨fun piece hpiece => unmarked_of_isUnmarked (List.all_eq_true.1 hchecked.1 piece hpiece),
    fun c hc => ?_⟩
  simpa using List.all_eq_true.1 hchecked.2 c hc

section Source

variable (h : g.Sound roots) (honly : g.Only roles.Allows)
  (hspeaker : g.speaker? roots = some speaker)

include honly in
/-- The nodes that the roots reach are allowed. -/
lemma allows_reached : ∀ n ∈ g.nodesOf (g.traverse roots), roles.Allows n.kind := by
  intro n hn
  obtain ⟨id, -, hid⟩ := mem_nodesOf.1 hn
  exact honly.of_node? hid

include honly hspeaker in
/-- A line of the program that defines a name of a configuration is the line of that configuration, and
one of the first receiver. -/
lemma eq_of_mem_collectDefines {line other : String} (hline : line ∈ config.defines)
    (hother : other ∈ collectDefines (g.nodesOf (g.traverse roots)))
    (hname : ShadowConfig.nameOf? other = ShadowConfig.nameOf? line) :
    other = line ∧ other ∈ speaker.defines := by
  have hne : other ≠ defineLine "SHADER_NAME" roles.programName := by
    rintro rfl
    obtain ⟨name, value, hparsed, hmarked, -⟩ := ShadowConfig.exists_name_of_mem_defines hline
    rw [nameOf?_programName, ShadowConfig.nameOf?, hparsed] at hname
    cases hname
    exact absurd hmarked (by rw [IsMarked]; decide)
  have hspoken := (mem_collectDefines_iff (allows_reached honly) hspeaker hne).1 hother
  exact ⟨ShadowConfig.eq_of_nameOf?_eq hspoken hline hname, hspoken⟩

include honly hspeaker in
/-- What the first receiver defines, the program defines. -/
lemma mem_collectDefines {line : String} (hline : line ∈ speaker.defines) :
    line ∈ collectDefines (g.nodesOf (g.traverse roots)) :=
  (mem_collectDefines_iff (allows_reached honly) hspeaker (ne_of_mem_defines hline)).2 hline

include h honly hspeaker in
/-- A name of a configuration is defined in the source exactly if the first receiver defines it. -/
lemma definesName_compileStage (hversion : IsPlain settings.glslVersion) {line name value : String}
    (hline : line ∈ config.defines) (hparsed : parseDefineLine line = some (name, value)) :
    definesName (compileStage .common {} settings g roots).source name = true ↔
      line ∈ speaker.defines := by
  have hmarked : IsMarked name := by
    obtain ⟨name', value', hparsed', hmarked, -⟩ := ShadowConfig.exists_name_of_mem_defines hline
    rw [hparsed] at hparsed'
    cases hparsed'
    exact hmarked
  have hextensions : ∀ extension ∈ collectExtensions (g.nodesOf (g.traverse roots)),
      ∀ piece ∈ split (· == '\n') extension.toList, Unmarked piece := fun extension hextension =>
    (unmarked_of_mem_extensions ((mem_collectExtensions_iff hspeaker).1 hextension)).1
  rw [source_compileStage, definesName_process hversion hextensions (h.tame_assemble settings) hmarked]
  constructor
  · rintro ⟨other, hother, value', hvalue⟩
    have hname : ShadowConfig.nameOf? other = ShadowConfig.nameOf? line := by
      rw [ShadowConfig.nameOf?, ShadowConfig.nameOf?, hparsed, hvalue]
      rfl
    obtain ⟨rfl, hspoken⟩ := eq_of_mem_collectDefines honly hspeaker hline hother hname
    exact hspoken
  · intro hspoken
    exact ⟨line, mem_collectDefines honly hspeaker hspoken, value, hparsed⟩

include h honly hspeaker in
/-- A definition line of a configuration is in the source exactly if the first receiver has it. -/
lemma define_mem_linesOf_iff (hversion : IsPlain settings.glslVersion) {line : String}
    (hline : line ∈ config.defines) :
    line.toList ∈ linesOf (compileStage .common {} settings g roots).source.toList ↔
      line ∈ speaker.defines := by
  obtain ⟨name, value, hparsed, -, hprinted⟩ := ShadowConfig.exists_name_of_mem_defines hline
  constructor
  · intro hmem
    refine (definesName_compileStage h honly hspeaker hversion hline hparsed).1 ?_
    exact definesName_iff.2 ⟨_, hmem, value, by rwa [String.ofList_toList]⟩
  · intro hspoken
    obtain ⟨last, hlast, value', hvalue, hmem⟩ := exists_mem_linesOf_process .common settings
      (assemble settings g (g.nodesOf (g.traverse roots)) (MainBody.ofNodes g settings.debugNodes
        (g.nodesOf (g.traverse roots)))) (collectExtensions (g.nodesOf (g.traverse roots)))
        (mem_collectDefines honly hspeaker hspoken) hparsed
    have hname : ShadowConfig.nameOf? last = ShadowConfig.nameOf? line := by
      rw [ShadowConfig.nameOf?, ShadowConfig.nameOf?, hparsed, hvalue]
      rfl
    obtain ⟨rfl, -⟩ := eq_of_mem_collectDefines honly hspeaker hline hlast hname
    rw [hparsed] at hvalue
    cases hvalue
    rw [source_compileStage, ← hprinted]
    exact hmem

include hspeaker in
/-- The extensions of the first receiver are in the source. -/
lemma extension_mem_linesOf (settings : Settings) {extension : String}
    (hextension : extension ∈ speaker.extensions) :
    extension.toList ∈ linesOf (compileStage .common {} settings g roots).source.toList := by
  rw [source_compileStage]
  exact mem_linesOf_process .common settings _
    (.inl ((mem_collectExtensions_iff hspeaker).2 hextension)) (unmarked_of_mem_extensions hextension).2

include h honly hspeaker in
/-- The function that receives shadows has a parameter for each pin of the first receiver. -/
lemma length_receiveParameters_compileStage (hversion : IsPlain settings.glslVersion) :
    (receiveParameters (definesName (compileStage .common {} settings g roots).source)).length =
      speaker.receivePins.length := by
  have hname : ∀ algorithm : ShadowAlgorithm, algorithm ≠ .none →
      (definesName (compileStage .common {} settings g roots).source algorithm.selector = true ↔
        speaker.algorithm = algorithm) := by
    intro algorithm hne
    have hparsed : parseDefineLine ("#define " ++ algorithm.selector) =
        some (algorithm.selector, "") := by
      cases algorithm <;> decide +kernel
    have hline : "#define " ++ algorithm.selector ∈ ({ algorithm } : ShadowConfig).defines :=
      List.mem_map_of_mem (ShadowConfig.selector_mem_selectors { algorithm })
    rw [definesName_compileStage h honly hspeaker hversion hline hparsed,
      ← ShadowConfig.selector_mem_selectors_iff hne, ShadowConfig.defines,
      List.mem_map_of_injective fun a b => String.append_right_inj "#define " |>.1]
  have hesm := hname .esm (by decide)
  have hevsm := hname .evsm (by decide)
  have hvsm := hname .vsm (by decide)
  simp only [ShadowAlgorithm.selector] at hesm hevsm hvsm
  rw [length_receiveParameters, ShadowConfig.length_receivePins]
  simp only [hesm, hevsm, hvsm]

/-- The program asks for the library files of the functions that are called. -/
lemma reached_of_mem_collectFunctions (settings : Settings) (main : MainBody) {file : String}
    (hfile : Node.includeLine file ∈ collectFunctions (g.nodesOf (g.traverse roots)))
    (hline : Include.ofLine? (Node.includeLine file).toList = some ⟨file, []⟩)
    (hchars : (Node.includeLine file).toList ≠ [] ∧ '\n' ∉ (Node.includeLine file).toList ∧
      '\r' ∉ (Node.includeLine file).toList) :
    Reached {} (collectDefines (g.nodesOf (g.traverse roots)))
      (linesOf (assemble settings g (g.nodesOf (g.traverse roots)) main).toList) file := by
  obtain ⟨hne, hfeed, hreturn⟩ := hchars
  have hpiece : (Node.includeLine file).toList ∈
      split (· == '\n') ("\n".intercalate (collectFunctions (g.nodesOf (g.traverse roots)))).toList := by
    generalize collectFunctions (g.nodesOf (g.traverse roots)) = functions at hfile
    cases functions with
    | nil => cases hfile
    | cons first functions =>
      rw [split_intercalate]
      exact List.mem_flatMap.2 ⟨_, hfile, by rw [split_line hfeed]; exact List.mem_cons_self⟩
  refine .lines ⟨_, mem_linesOf ?_ hne hreturn, _, hline, .inl rfl, rfl⟩
  rw [assemble_eq, split_intercalate]
  refine List.mem_flatMap.2 ⟨_, ?_, hpiece⟩
  simp only [List.mem_cons, List.mem_append, true_or, or_true]

include hspeaker in
/-- The declaration of the function that receives shadows is in the source. -/
lemma receiveHeader_infix (settings : Settings) :
    receiveHeader <:+: linesOf (compileStage .common {} settings g roots).source.toList := by
  obtain ⟨before, after, hlines⟩ := exists_receiveHeader
  have hreached := reached_of_mem_collectFunctions settings
    (MainBody.ofNodes g settings.debugNodes (g.nodesOf (g.traverse roots)))
    (includeLine_mem_collectFunctions hspeaker) (by decide) (by decide)
  rw [source_compileStage]
  exact infix_linesOf_process .common settings _ hreached rfl hlines receiveHeader_checked.2.2

include h honly hspeaker in
/-- A receiver is filtered as it was configured exactly if the first receiver defines what its
configuration defines. -/
lemma filters_compileStage_iff (hversion : IsPlain settings.glslVersion) {args : List Argument}
    (hargs : args.length = config.receivePins.length) :
    (compileStage .common {} settings g roots).Filters config args ↔
      config.defines ⊆ speaker.defines := by
  constructor
  · intro hfilters line hline
    exact (define_mem_linesOf_iff h honly hspeaker hversion hline).1
      (hfilters.lines line (List.mem_append_left _ hline))
  · intro hsubset
    obtain ⟨hpins, hextensions⟩ := ShadowConfig.agree_of_defines_subset hsubset
    refine ⟨fun line hline => ?_, ?_⟩
    · rcases List.mem_append.1 hline with hdefine | hextension
      · exact (define_mem_linesOf_iff h honly hspeaker hversion hdefine).2 (hsubset hdefine)
      · exact extension_mem_linesOf hspeaker settings (hextensions hextension)
    · rw [length_receiveParameters_compileStage h honly hspeaker hversion, hargs, hpins]

end Source

end Graph

namespace Context

/-- **Shadows are filtered as the first receiver says.** Whatever the attributes and texture units, the
program is compiled, and each node of its fragment stage that receives shadows calls the function that
the library declares, with an argument for each pin of its configuration. All lines of this
configuration are in the source, so that the call has as many arguments as the function has parameters,
exactly if the first of these nodes defines them. -/
theorem compileProgram_filters (settings : Settings) (catalogue : Catalogue) (limits : BoneLimits)
    (attributes : List Attribute) (units : List (List Attribute))
    (hversion : IsPlain settings.glslVersion) :
    let fragment := (Roles.ofAttributes attributes units).fragmentGraph
    ∃ program : CompiledProgram, Context.compileProgram { settings, catalogue, boneLimits := limits }
        (Roles.ofAttributes attributes units) none = .ok program ∧
      ∀ n ∈ fragment.graph.nodesOf (fragment.graph.traverse fragment.roots),
        ∀ config, n.kind = .shadowReceive config → ∃ speaker target args note,
          fragment.graph.speaker? fragment.roots = some speaker ∧
            (n, .call "computeShadow" target args note) ∈
              fragment.graph.statements settings.debugNodes fragment.roots ∧
            (Statement.call "computeShadow" target args note).render.toList <:+:
              program.fragment.source.toList ∧
            receiveHeader <:+: linesOf program.fragment.source.toList ∧
            args.length = config.receivePins.length ∧
            (program.fragment.Filters config args ↔ config.defines ⊆ speaker.defines) := by
  intro fragment
  have hsound : fragment.graph.Sound fragment.roots :=
    (Roles.ofAttributes attributes units).sound_fragmentGraph.1.mono (List.nil_subset _)
  have honly := (Roles.ofAttributes attributes units).only_fragmentGraph
  have hvertex := ((Roles.ofAttributes attributes units).sound_vertexGraph limits
    (Roles.ofAttributes attributes units).sound_fragmentGraph.1).1
  refine ⟨_, compileProgram_of_fault _ _ hvertex.fault, fun n hn config hreceives => ?_⟩
  obtain ⟨id, hid, hnode⟩ := Graph.mem_nodesOf.1 hn
  obtain ⟨speaker, hspeaker⟩ : ∃ speaker, fragment.graph.speaker? fragment.roots = some speaker := by
    rw [← Option.isSome_iff_exists, Graph.speaker?, List.isSome_findSome?, List.any_eq_true]
    exact ⟨n, hn, by rw [Node.receives?_eq_some_iff.2 hreceives]; rfl⟩
  obtain ⟨_, hstatement, target, args, note, rfl, hargs⟩ :=
    hsound.yields_receive hnode hreceives settings.debugNodes
  have hmem : (n, .call "computeShadow" target args note) ∈
      fragment.graph.statements settings.debugNodes fragment.roots := by
    refine List.mem_filterMap.2 ⟨id, hid, Graph.statementAt?_eq_some_iff.2 ⟨hnode, hstatement, ?_⟩⟩
    have hwrites : target.operand ∈ (Statement.call "computeShadow" target args note).writes := by
      rw [Statement.writes]
      exact List.mem_cons_self
    exact Statement.isEmpty_render hwrites
  refine ⟨speaker, target, args, note, hspeaker, hmem, ?_,
    Graph.receiveHeader_infix hspeaker settings, hargs,
    Graph.filters_compileStage_iff hsound honly hspeaker hversion hargs⟩
  refine Graph.infix_statement hmem ?_ .common
  obtain ⟨_, hyields, hof⟩ := hsound.yields_checkedStatement hnode settings.debugNodes
  rw [hstatement] at hyields
  cases hyields
  exact (hof _ rfl).render

/-- Two lights whose shadows are received in different ways, and a shadow map for each. -/
def twoReceivers : List Attribute :=
  [.material {}, .light { number := 0 }, .light { number := 1 },
   .shadowReceive { light := 0, config := { algorithm := .esm } }, .shadowReceive { light := 1 }]

def twoShadowMaps : List (List Attribute) :=
  [[.shadowTexture { light := 0 }], [.shadowTexture { light := 1 }]]

/-- The second receiver has no exponents, but the source defines the algorithm of the first one: its
call is not filtered as it was configured. -/
theorem compileProgram_filters_twoReceivers :
    let fragment := (Roles.ofAttributes twoReceivers twoShadowMaps).fragmentGraph
    IsPlain ({} : Settings).glslVersion ∧ ∃ program : CompiledProgram,
      Context.compileProgram {} (Roles.ofAttributes twoReceivers twoShadowMaps) none = .ok program ∧
        ∃ n ∈ fragment.graph.nodesOf (fragment.graph.traverse fragment.roots),
          n.kind = .shadowReceive {} ∧ ∃ target args note,
            (n, .call "computeShadow" target args note) ∈ fragment.graph.statements false fragment.roots ∧
              ¬program.fragment.Filters {} args := by
  have hversion : IsPlain ({} : Settings).glslVersion := by decide
  obtain ⟨program, hprogram, hfilters⟩ := compileProgram_filters {} .builtin {}
    twoReceivers twoShadowMaps hversion
  have hreceivers : let fragment := (Roles.ofAttributes twoReceivers twoShadowMaps).fragmentGraph
      (fragment.graph.nodesOf (fragment.graph.traverse fragment.roots)).filterMap Node.receives? =
        [{ algorithm := .esm }, {}] := by
    decide +kernel
  -- of the graph, only its receivers matter, so it is not evaluated again
  generalize (Roles.ofAttributes twoReceivers twoShadowMaps).fragmentGraph = fragment
    at hfilters hreceivers ⊢
  dsimp only at hreceivers
  have hspeaker : fragment.graph.speaker? fragment.roots = some { algorithm := .esm } := by
    rw [Graph.speaker?, ← List.head?_filterMap, hreceivers, List.head?_cons]
  obtain ⟨n, hn, hreceives⟩ : ∃ n ∈ fragment.graph.nodesOf (fragment.graph.traverse fragment.roots),
      n.receives? = some {} := by
    refine List.mem_filterMap.1 ?_
    rw [hreceivers]
    exact List.mem_cons_of_mem _ List.mem_cons_self
  have hkind := Node.receives?_eq_some_iff.1 hreceives
  obtain ⟨speaker, target, args, note, hspeaks, hcall, -, -, -, hfiltered⟩ := hfilters n hn {} hkind
  refine ⟨hversion, program, hprogram, n, hn, hkind, target, args, note, hcall, fun h => ?_⟩
  have hsubset := hfiltered.1 h
  rw [hspeaker] at hspeaks
  cases hspeaks
  revert hsubset
  decide

end Context

end SceneShading
