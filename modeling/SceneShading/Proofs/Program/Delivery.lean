import Mathlib.Tactic
import SceneShading.Proofs.Codegen.Assignment
import SceneShading.Proofs.Program.Feeding

/-!
# Varyings of described graphs arrive

The vertex stage of a described program declares every varying of the described graph under its name
and with its type, and if the name says what the varying carries, a statement of `main` assigns a
value to it (`Context.compileProgram_delivers`).

A description may declare several variables of one name. The first of them is the one that its graph
has; every other one stands for it, and is reported if it is of another type
(`Description.answers_describedGraph`).
-/

namespace SceneShading

variable {g g' : Graph} {id : NodeId}

/-! ## Variables of descriptions -/

namespace Description

/-- The variable that a catalogue makes of a described node, if it makes one. -/
def declaredBy? (catalogue : Catalogue) (n : NodeDescription) : Option Variable :=
  match catalogue.create n.nodeType n.args with
  | .ok (.var v) => some v
  | _ => none

/-- The variables that a description declares, in its order. -/
def declarations (catalogue : Catalogue) (d : Description) : List Variable :=
  d.nodes.filterMap (declaredBy? catalogue)

/-- The first variable of a name. -/
def firstNamed? (vs : List Variable) (name : String) : Option Variable :=
  vs.find? (·.name == name)

/-- A name has its first variable whatever comes behind. -/
lemma firstNamed?_append {vs : List Variable} {name : String} {w : Variable}
    (h : firstNamed? vs name = some w) (more : List Variable) :
    firstNamed? (vs ++ more) name = some w := by
  rw [firstNamed?] at *
  rw [List.find?_append, h, Option.some_or]

open SceneShading.Graph

/-- The graph has the first variable of each name, among the varyings if it is one. Another variable
of the name has the same type, or is reported. -/
structure Answers (vs : List Variable) (g : Graph) : Prop where
  registered : ∀ name id, g.find? name = some id → ∃ w, g.declared? id = some w ∧
    firstNamed? vs name = some w ∧ (w.cls = .varying → (name, id) ∈ g.varyings)
  answered : ∀ v ∈ vs, ∃ id w, g.find? v.name = some id ∧ g.declared? id = some w ∧
    (w.type = v.type ∨ .typeMismatch v.name v.type w.type ∈ g.diagnostics)

/-- What is wired in another way answers the same. -/
lemma Answers.rewires {vs : List Variable} (h : Answers vs g) (hg : Rewires g g') :
    Answers vs g' := by
  have hfind : ∀ name, g'.find? name = g.find? name := fun name => by
    rw [Graph.find?, hg.registry, Graph.find?]
  refine ⟨fun name id hid => ?_, fun v hv => ?_⟩
  · obtain ⟨w, hw, hfirst, hvarying⟩ := h.registered name id (hfind name ▸ hid)
    exact ⟨w, (hg.declared?_eq id).trans hw, hfirst, fun hcls => hg.varyings ▸ hvarying hcls⟩
  · obtain ⟨id, w, hid, hw, htype⟩ := h.answered v hv
    exact ⟨id, w, (hfind v.name).trans hid, (hg.declared?_eq id).trans hw,
      htype.imp_right fun hreported => hg.diagnostics hreported⟩

/-- What is reported answers the same. -/
lemma Answers.quiet {vs : List Variable} (h : Answers vs g) (hg : Quiet g g') : Answers vs g' :=
  h.rewires hg.rewires

/-- A node that is no variable answers nothing. -/
lemma Answers.insert {vs : List Variable} (h : Answers vs g) (kind : NodeKind) :
    Answers vs (g.insert kind).2 := by
  have hgrows := (g.builds_insert kind).grows
  refine ⟨fun name id hid => ?_, fun v hv => ?_⟩
  · obtain ⟨w, hw, hfirst, hvarying⟩ := h.registered name id hid
    exact ⟨w, hgrows.declared? hw, hfirst, hvarying⟩
  · obtain ⟨id, w, hid, hw, htype⟩ := h.answered v hv
    exact ⟨id, w, hid, hgrows.declared? hw, htype⟩

/-- A name that is not registered is that of no variable so far. -/
lemma Answers.firstNamed?_eq_none {vs : List Variable} (h : Answers vs g) {name : String}
    (hfree : g.find? name = none) : firstNamed? vs name = none := by
  rw [firstNamed?, List.find?_eq_none]
  intro v hv hname
  obtain ⟨id, w, hid, -⟩ := h.answered v hv
  rw [beq_iff_eq.1 hname, hfree] at hid
  cases hid

/-- One more variable of a registered name. -/
lemma Answers.existing {vs : List Variable} (h : Answers vs g) {v : Variable}
    (hid : g.find? v.name = some id) :
    Answers (vs ++ [v]) (g.checkType id v.name v.type).2 := by
  have hquiet := g.quiet_checkType id v.name v.type
  have hold := h.quiet hquiet
  obtain ⟨w, hw, hfirst, -⟩ := h.registered v.name id hid
  refine ⟨fun name id' hid' => ?_, fun u hu => ?_⟩
  · obtain ⟨w', hw', hfirst', hvarying'⟩ := hold.registered name id' hid'
    exact ⟨w', hw', firstNamed?_append hfirst' _, hvarying'⟩
  · rcases List.mem_append.1 hu with hu | hu
    · exact hold.answered u hu
    · rw [List.mem_singleton.1 hu]
      refine ⟨id, w, ?_, hquiet.builds.grows.declared? hw, ?_⟩
      · rw [Graph.find?, hquiet.registry]
        exact hid
      · by_cases htype : w.type = v.type
        · exact .inl htype
        · refine .inr ?_
          unfold checkType
          rw [hw]
          simp only
          rw [if_neg htype]
          exact List.mem_append_right _ List.mem_cons_self

/-- The first variable of a name. -/
lemma Answers.fresh {vs : List Variable} (h : Answers vs g) {v : Variable}
    (hfree : g.find? v.name = none) :
    Answers (vs ++ [v]) (if v.cls = .varying then (g.insertVariable v).2.addVarying v.name g.size
      else (g.insertVariable v).2) := by
  have hgains := g.gains_insertVariable v
  have hfirst : firstNamed? (vs ++ [v]) v.name = some v := by
    have hnone := h.firstNamed?_eq_none hfree
    rw [firstNamed?] at *
    rw [List.find?_append, hnone, Option.none_or]
    exact List.find?_cons_of_pos (beq_self_eq_true v.name)
  refine ⟨fun name id hid => ?_, fun u hu => ?_⟩
  · rw [hgains.find] at hid
    split at hid
    next hname =>
      cases hid
      subst hname
      exact ⟨v, hgains.declared, hfirst, hgains.joined⟩
    next =>
      obtain ⟨w, hw, hold, hvarying⟩ := h.registered name id hid
      exact ⟨w, hgains.grows.declared? hw, firstNamed?_append hold _,
        fun hcls => hgains.varyings (hvarying hcls)⟩
  · rcases List.mem_append.1 hu with hu | hu
    · obtain ⟨id, w, hid, hw, htype⟩ := h.answered u hu
      exact ⟨id, w, hgains.find?_of_find? hfree hid, hgains.grows.declared? hw,
        hgains.diagnostics ▸ htype⟩
    · rw [List.mem_singleton.1 hu]
      exact ⟨g.size, v, (hgains.find v.name).trans (if_pos rfl), hgains.declared, .inl rfl⟩

/-- One more node is created. -/
lemma Answers.createStep {vs : List Variable} {s : BuiltIds × Graph} (h : Answers vs s.2)
    (catalogue : Catalogue) (n : NodeDescription) :
    Answers (vs ++ (declaredBy? catalogue n).toList) (createStep catalogue s n).2 := by
  have hnoted := s.2.quiet_noteIf (!catalogue.contains n.nodeType) (.unknownNodeType n.nodeType)
  have hold := h.quiet hnoted
  unfold Description.createStep createNode declaredBy?
  generalize s.2.noteIf (!catalogue.contains n.nodeType) (.unknownNodeType n.nodeType) = g at hold
  cases catalogue.create n.nodeType n.args with
  | error d =>
    rw [Option.toList_none, List.append_nil]
    exact hold.quiet (g.quiet_report d)
  | ok kind =>
    cases kind with
    | var v =>
      cases hfind : g.find? v.name with
      | some existing =>
        simp only [hfind]
        exact hold.existing hfind
      | none =>
        simp only [hfind]
        exact hold.fresh hfind
    | _ =>
      rw [Option.toList_none, List.append_nil]
      exact hold.insert _

/-- A described graph answers all variables of the description. -/
lemma answers_describedGraph (ctx : Context) (d : Description) :
    Answers (d.declarations ctx.catalogue) (ctx.describedGraph d).graph := by
  have hfold : ∀ (nodes : List NodeDescription) (vs : List Variable) (s : BuiltIds × Graph),
      Answers vs s.2 → Answers (vs ++ nodes.filterMap (declaredBy? ctx.catalogue))
        (nodes.foldl (createStep ctx.catalogue) s).2 := by
    intro nodes
    induction nodes with
    | nil => exact fun vs s hs => (List.append_nil vs).symm ▸ hs
    | cons n nodes ih =>
      intro vs s hs
      have hstep := ih _ _ (hs.createStep ctx.catalogue n)
      rw [List.filterMap_cons]
      cases hdeclared : declaredBy? ctx.catalogue n with
      | none => simpa [hdeclared] using hstep
      | some v => simpa [hdeclared] using hstep
  have hcreated : Answers (d.declarations ctx.catalogue) (d.createNodes ctx.catalogue (ofStage .fragment)).2 :=
    hfold d.nodes [] ([], ofStage .fragment)
      ⟨fun name id hid => by simp [ofStage, Graph.find?, Registry.find?] at hid, by simp⟩
  exact hcreated.rewires (rewired_describedGraph ctx d).1.rewires

end Description

/-! ## Statements that feed -/

namespace Node.Ready

variable {n : Node}

/-- An operand is found. -/
lemma yields_resolve {nodeType pin : String} (hid : (g.operand? id).isSome) :
    Yields (g.resolve nodeType (.node id) pin) fun _ => True := by
  obtain ⟨o, ho⟩ := Option.isSome_iff_exists.1 hid
  refine ⟨o, ?_, trivial⟩
  rw [Graph.resolve, ho]

variable (h : n.Ready g)

include h

/-- All inputs have operands. -/
lemma yields_inputs : Yields (g.inputs n) fun os => os.length = n.inputs.length := by
  have hlength : (Graph.pinnedInputs n).length = n.inputs.length := by
    rw [Graph.pinnedInputs, List.length_mapIdx]
  have hall : Yields (g.inputs n) fun os => (∀ o ∈ os, True) ∧
      os.length = (Graph.pinnedInputs n).length := by
    rw [Graph.inputs]
    refine .mapM fun e he => ?_
    obtain ⟨i, hi, rfl⟩ := List.mem_mapIdx.1 he
    obtain ⟨input, hsource, hinput⟩ := h.inputs _ (List.getElem_mem hi)
    simp only [hsource]
    exact yields_resolve hinput
  obtain ⟨os, hos, -, hcount⟩ := hall
  exact ⟨os, hos, hcount.trans hlength⟩

/-- A bound pin has an operand. -/
lemma isSome_pin? {pin : String}
    (hpin : (n.outputs.pins.lookup pin).isSome ∨ (n.input? pin).isSome) :
    (g.pin? n pin).isSome := by
  rw [Graph.pin?]
  cases houtput : n.outputs.pins.lookup pin with
  | some target =>
    refine h.outputs target ?_
    cases htargets : n.outputs with
    | named pins =>
      rw [htargets] at houtput
      exact @Outputs.mem_targets_of_get? (.named pins) pin target houtput
    | _ => simp [htargets, Outputs.pins] at houtput
  | none =>
    rw [houtput] at hpin
    obtain ⟨source, hsource⟩ := Option.isSome_iff_exists.1 (hpin.resolve_left (by simp))
    obtain ⟨e, he, rfl⟩ := Option.map_eq_some_iff.1 hsource
    obtain ⟨input, hinput, hoperand⟩ := h.inputs e (List.mem_of_find?_eq_some he)
    obtain ⟨o, ho⟩ := Option.isSome_iff_exists.1 hoperand
    simp only
    rw [Graph.optionalInput, hsource, hinput]
    simp only
    rw [Graph.resolve, ho]
    rfl

/-- An operation that is ready has a statement. -/
lemma yields_statement (debug : Bool) :
    Yields (g.checkedStatement debug n) fun s => s.isSome := by
  obtain ⟨hvalid, hcomplete⟩ := h.complete
  have hsome : ∀ {x : Except Diagnostic Statement}, Yields x (fun _ => True) →
      Yields (some <$> x) fun s => s.isSome := fun hx => hx.map fun _ _ => rfl
  rw [Graph.checkedStatement, hvalid]
  simp only [Graph.statement]
  rcases h.kind with hkind | ⟨code, hkind⟩
  · rw [hkind] at hcomplete ⊢
    refine hsome ?_
    rw [Graph.combination, Graph.firstOutput]
    obtain ⟨target, htarget⟩ := Option.isSome_iff_exists.1 hcomplete.2
    rw [htarget]
    refine .bind (yields_resolve (h.outputs _ (Outputs.mem_targets_of_first? htarget))) fun o _ => ?_
    refine .bind h.yields_inputs fun operands hlength => ?_
    cases operands with
    | nil => exact absurd (List.length_eq_zero_iff.1 hlength.symm) hcomplete.1
    | cons first rest => exact .pure trivial
  · rw [hkind] at hcomplete ⊢
    refine hsome ?_
    have hpieces : Yields ((Snippet.parts code.toList).mapM (g.pieceOf n)) fun pieces =>
        (∀ piece ∈ pieces, True) ∧ pieces.length = (Snippet.parts code.toList).length := by
      refine .mapM fun part hpart => ?_
      cases part with
      | text chars => exact .pure trivial
      | pin name =>
        obtain ⟨o, ho⟩ := Option.isSome_iff_exists.1 (h.isSome_pin? (hcomplete.2 name hpart))
        refine ⟨.pin (String.ofList name) o, ?_, trivial⟩
        rw [Graph.pieceOf, ho]
    rw [Graph.snippetOf]
    exact .bind hpieces fun pieces _ => .pure trivial

end Node.Ready

/-- What is fed is assigned a value by a statement, if the roots reach it. -/
lemma BuildFact.fed_statement {roots : List NodeId} (debug : Bool)
    (h : (BuildFact.fed id).Holds g) (hreached : id ∈ g.traverse roots) {v : Variable}
    (hv : g.declared? id = some v) :
    ∃ e ∈ g.statements debug roots, ⟨v.name, some v.type⟩ ∈ e.2.writes := by
  obtain ⟨j, n, m, hn, hready, hassigns, hm, hlinked⟩ := h
  obtain ⟨_ | s, hs, hsome⟩ := hready.yields_statement debug
  · cases hsome
  · have hwrites := Graph.mem_writes_of_assigns hs hassigns (Graph.operand?_of_declared? hv)
    have hlisted : j ∈ g.traverse roots :=
      Graph.mem_traverse_of_input hreached hm hlinked (by rw [hn, Option.isSome_some])
    have hstatement : g.statementAt? debug j = some (n, s) :=
      Graph.statementAt?_eq_some_iff.2 ⟨hn, hs, Statement.isEmpty_render hwrites⟩
    exact ⟨(n, s), List.mem_filterMap.2 ⟨j, hlisted, hstatement⟩, hwrites⟩

/-! ## Blocks of a source -/

/-- Between two line feeds, the text has the block between two line feeds. -/
def HasBlock (block text : String) : Prop :=
  ∃ before after, "\n" ++ text ++ "\n" = before ++ "\n" ++ (block ++ "\n" ++ after)

namespace HasBlock

variable {block text : String}

lemma refl (block : String) : HasBlock block block :=
  ⟨"", "", by simp only [String.empty_append, String.append_empty, String.append_assoc]⟩

/-- A block stays one when lines are put behind the text. -/
lemma append (h : HasBlock block text) (behind : String) : HasBlock block (text ++ "\n" ++ behind) := by
  obtain ⟨before, after, hsplit⟩ := h
  refine ⟨before, after ++ behind ++ "\n", ?_⟩
  calc "\n" ++ (text ++ "\n" ++ behind) ++ "\n"
      = "\n" ++ text ++ "\n" ++ (behind ++ "\n") := by simp only [String.append_assoc]
    _ = _ := by rw [hsplit]; simp only [String.append_assoc]

/-- A block stays one when lines are put before the text. -/
lemma prepend (h : HasBlock block text) (ahead : String) : HasBlock block (ahead ++ "\n" ++ text) := by
  obtain ⟨before, after, hsplit⟩ := h
  refine ⟨"\n" ++ ahead ++ before, after, ?_⟩
  calc "\n" ++ (ahead ++ "\n" ++ text) ++ "\n"
      = "\n" ++ ahead ++ ("\n" ++ text ++ "\n") := by simp only [String.append_assoc]
    _ = _ := by rw [hsplit]; simp only [String.append_assoc]

/-- The texts that lines are joined from are blocks. -/
lemma of_mem_intercalate {texts : List String} (h : block ∈ texts) :
    HasBlock block ("\n".intercalate texts) := by
  induction texts with
  | nil => cases h
  | cons head texts ih =>
    cases texts with
    | nil =>
      rw [List.mem_singleton.1 h, String.intercalate_singleton]
      exact .refl head
    | cons next texts =>
      rw [String.intercalate_cons_cons]
      rcases List.mem_cons.1 h with rfl | hrest
      · exact (HasBlock.refl block).append _
      · exact (ih hrest).prepend _

/-- The declarations of a layout are blocks. -/
lemma of_mem_layoutDeclarations {declarations : List String} (h : block ∈ declarations) :
    HasBlock block (layoutDeclarations declarations) := by
  fun_induction layoutDeclarations with
  | case1 => cases h
  | case2 d =>
    rw [List.mem_singleton.1 h]
    exact .refl d
  | case3 d e r gap ih =>
    have hgap : gap = "\n" ∨ gap = "\n" ++ "" ++ "\n" := by
      simp only [gap]
      split
      · exact .inl rfl
      · exact .inr rfl
    rcases hgap with hgap | hgap <;> rw [hgap]
    · rcases List.mem_cons.1 h with rfl | hrest
      · exact (HasBlock.refl block).append _
      · exact (ih hrest).prepend _
    · rw [← String.append_assoc, ← String.append_assoc]
      rcases List.mem_cons.1 h with rfl | hrest
      · exact ((HasBlock.refl block).append "").append _
      · exact (ih hrest).prepend _

/-- A plain block of a part of a program is a block of its source. -/
lemma infix_of_assemble_eq {roots : List NodeId} {settings : Settings} {part before after : String}
    (h : HasBlock block part) (hpart : assemble settings g (g.nodesOf (g.traverse roots))
      (MainBody.ofNodes g settings.debugNodes (g.nodesOf (g.traverse roots))) =
        before ++ "\n" ++ (part ++ "\n" ++ after)) (hplain : IsPlain block) (pool : SymbolPool) :
    block.toList <:+: (compileStage pool {} settings g roots).source.toList := by
  obtain ⟨ahead, behind, hblock⟩ := h
  have hinner : before ++ "\n" ++ (part ++ "\n" ++ after) =
      before ++ ahead ++ "\n" ++ (block ++ "\n" ++ (behind ++ after)) :=
    calc before ++ "\n" ++ (part ++ "\n" ++ after)
        = before ++ ("\n" ++ part ++ "\n") ++ after := by simp only [String.append_assoc]
      _ = _ := by rw [hblock]; simp only [String.append_assoc]
  exact Graph.infix_of_assemble_eq pool hplain (hpart.trans hinner)

/-- A plain block of an inner part of a program is a block of its source. -/
lemma infix_compileStage {roots : List NodeId} {settings : Settings} {part : String}
    (h : HasBlock block part) (hpart : g.IsPart settings roots part) (hplain : IsPlain block)
    (pool : SymbolPool) :
    block.toList <:+: (compileStage pool {} settings g roots).source.toList := by
  obtain ⟨before, after, hsplit⟩ := hpart.exists_assemble_eq
  exact h.infix_of_assemble_eq hsplit hplain pool

end HasBlock

/-! ## Delivered varyings -/

/-- The stage declares the varying, and if its name says what it carries, a statement of `main`
assigns a value to it. Declarations and statements that hold no directive stand in the source as they
are. -/
structure CompiledStage.Delivers (ctx : Context) (g : Graph) (roots : List NodeId)
    (c : CompiledStage) (type name : String) : Prop where
  declared : { cls := .varying, type, name } ∈ g.fileVariables roots
  declaration : ctx.library = {} → IsPlain type → IsPlain name →
    ("varying " ++ (type ++ " " ++ name) ++ ";").toList <:+: c.source.toList
  written : VertexGraph.IsKnown name → ∃ e ∈ g.statements ctx.settings.debugNodes roots,
    ⟨name, some type⟩ ∈ e.2.writes ∧
      (ctx.library = {} → IsPlain e.2.render → e.2.render.toList <:+: c.source.toList)

namespace Graph

variable {roots : List NodeId}

/-- A plain declaration at file scope is a block of the source. -/
lemma infix_globalDeclaration {v : Variable} (hv : v ∈ g.fileVariables roots) {d : String}
    (hd : v.globalDeclaration = some d) (hplain : IsPlain d) (pool : SymbolPool)
    (settings : Settings) :
    d.toList <:+: (compileStage pool {} settings g roots).source.toList := by
  have hmem : d ∈ orderDeclarations g.stage
      ((g.nodesOf (g.traverse roots)).filterMap Node.globalDeclaration) := by
    rw [(orderDeclarations_perm _ _).mem_iff, filterMap_globalDeclaration]
    exact List.mem_filterMap.2 ⟨v, hv, hd⟩
  have hpart : g.IsPart settings roots (layoutDeclarations (orderDeclarations g.stage
      ((g.nodesOf (g.traverse roots)).filterMap Node.globalDeclaration))) := List.mem_cons_self
  exact (HasBlock.of_mem_layoutDeclarations hmem).infix_compileStage hpart hplain pool

/-- A plain statement is a block of the source. -/
lemma infix_statement {settings : Settings} {e : Node × Statement}
    (he : e ∈ g.statements settings.debugNodes roots) (hplain : IsPlain e.2.render)
    (pool : SymbolPool) :
    e.2.render.toList <:+: (compileStage pool {} settings g roots).source.toList := by
  obtain ⟨n, s⟩ := e
  obtain ⟨-, -, -, -, hempty⟩ := mem_statements.1 he
  have hline : s.render ∈ MainBody.linesOf n s := by
    rw [MainBody.linesOf]
    simp only [hempty, Bool.false_eq_true, if_false]
    exact List.mem_append_right _ List.mem_cons_self
  have hmem : s.render ∈ (MainBody.ofNodes g settings.debugNodes
      (g.nodesOf (g.traverse roots))).lines := by
    rw [lines_ofNodes]
    exact List.mem_flatMap_of_mem he hline
  have hpart : g.IsPart settings roots ("\n".intercalate (MainBody.ofNodes g settings.debugNodes
      (g.nodesOf (g.traverse roots))).lines) :=
    List.mem_cons_of_mem _ (List.mem_append_right _ List.mem_cons_self)
  exact (HasBlock.of_mem_intercalate hmem).infix_compileStage hpart hplain pool

end Graph

namespace Roles

/-- A varying of a fragment graph is delivered. -/
lemma delivers_vertexGraph (roles : Roles) (ctx : Context) {fragment : Graph}
    (hnames : ∀ e ∈ fragment.varyings, ¬VertexGraph.IsCut e.1) {e : String × NodeId}
    (he : e ∈ fragment.varyings) {w : Variable} (hw : fragment.declared? e.2 = some w) :
    let vertex := roles.vertexGraph ctx.boneLimits fragment
    (ctx.compile vertex.graph vertex.roots).Delivers ctx vertex.graph vertex.roots w.type e.1 := by
  intro vertex
  obtain ⟨-, hbuilds, hfed⟩ := roles.whole_vertexGraph ctx.boneLimits hnames
  have hroots : fragment.vertexFor.varyings.map (·.2) ⊆ vertex.roots :=
    VertexGraph.varyings_subset_build roles ctx.boneLimits fragment.vertexFor.varyings
      fragment.vertexFor
  obtain ⟨owed, howed, hname, hdeclared⟩ := fragment.carries_vertexFor.exists_varying he
  rw [hw] at hdeclared
  have hvarying : vertex.graph.declared? owed.2 =
      some { cls := .varying, type := w.type, name := e.1 } := hbuilds.grows.declared? hdeclared
  obtain ⟨n, hn, -⟩ := Option.bind_eq_some_iff.1 hvarying
  have hreached : owed.2 ∈ vertex.graph.traverse vertex.roots :=
    Graph.mem_traverse_of_root (hroots (List.mem_map_of_mem howed)) (by rw [hn, Option.isSome_some])
  have hfile : { cls := .varying, type := w.type, name := e.1 } ∈
      vertex.graph.fileVariables vertex.roots :=
    Graph.mem_fileVariables.2 ⟨owed.2, hreached, hvarying, rfl⟩
  refine ⟨hfile, fun hlibrary htype hplain => ?_, fun hknown => ?_⟩
  · rw [Context.compile, hlibrary]
    refine Graph.infix_globalDeclaration hfile rfl ?_ .common ctx.settings
    have htyped : IsPlain (w.type ++ " " ++ e.1) :=
      isPlain_append.2 ⟨isPlain_append.2 ⟨htype, by decide⟩, hplain⟩
    exact isPlain_append.2 ⟨isPlain_append.2 ⟨by decide, htyped⟩, by decide⟩
  · obtain ⟨statement, hstatement, hwrites⟩ := BuildFact.fed_statement
      ctx.settings.debugNodes (hfed owed howed (hname ▸ hknown)) hreached hvarying
    refine ⟨statement, hstatement, hwrites, fun hlibrary hplain => ?_⟩
    rw [Context.compile, hlibrary]
    exact Graph.infix_statement hstatement hplain .common

end Roles

namespace Context

/-- **The varyings of a description are delivered.** Whatever the description and the attributes, the
program of the description declares every varying in its vertex stage, with the type that it was
declared with, and assigns a value to it there, or it has a diagnostic about the type. The name has to
say what the varying carries, with a first character of its own, and it must not be that of another
variable that comes first in the description. -/
theorem compileProgram_delivers (ctx : Context) (attributes : List Attribute)
    (units : List (List Attribute)) (d : Description)
    (huncut : ctx.IsUncut d) :
    let roles := Roles.ofAttributes attributes units
    let fragment := ctx.describedGraph d
    let vertex := roles.vertexGraph ctx.boneLimits fragment.graph
    ∃ program : CompiledProgram, ctx.compileProgram roles (some d) = .ok program ∧
      fragment.graph.diagnostics ⊆ program.diagnostics ∧
        ∀ v ∈ d.declarations ctx.catalogue,
          (∃ type, .typeMismatch v.name v.type type ∈ fragment.graph.diagnostics) ∨
            ((∀ w, Description.firstNamed? (d.declarations ctx.catalogue) v.name = some w →
              w.cls = .varying) →
                program.vertex.Delivers ctx vertex.graph vertex.roots v.type v.name) := by
  intro roles fragment vertex
  have hwhole : vertex.Whole := (roles.whole_vertexGraph ctx.boneLimits huncut).1
  refine ⟨⟨ctx.compile vertex.graph vertex.roots,
    ctx.compile fragment.graph fragment.roots⟩, ?_, fun problem hproblem => ?_, fun v hv => ?_⟩
  · have hfault : (roles.vertexGraph ctx.boneLimits fragment.graph).graph.fault = none :=
      hwhole.fault
    unfold compileProgram compileFor
    dsimp only [Option.elim_some]
    rw [hfault]
  · refine List.mem_append_right _ ?_
    exact List.mem_append_left _ (List.mem_append_left _ (List.mem_append_left _ hproblem))
  · obtain ⟨hregistered, hanswered⟩ := d.answers_describedGraph ctx
    obtain ⟨id, w, hid, hw, htype⟩ := hanswered v hv
    obtain ⟨w', hw', hnamed, hvarying⟩ := hregistered v.name id hid
    rw [hw] at hw'
    cases hw'
    rcases htype with htype | hreported
    · refine .inr fun hfirst => ?_
      exact htype ▸ roles.delivers_vertexGraph ctx huncut (hvarying (hfirst w hnamed)) hw
    · exact .inl ⟨w.type, hreported⟩

/-- The vertex stage of the description of normals delivers them. -/
theorem compileProgram_delivers_normals :
    let vertex := (Roles.ofAttributes [] []).vertexGraph {} (({} : Context).describedGraph .normals).graph
    ({} : Context).IsUncut .normals ∧
      ∃ program : CompiledProgram,
        ({} : Context).compileProgram (.ofAttributes [] []) (some .normals) = .ok program ∧
          program.vertex.Delivers {} vertex.graph vertex.roots "vec3" "vModelNormal" := by
  intro vertex
  have huncut : ({} : Context).IsUncut .normals := by decide +kernel
  have hdiagnostics : (({} : Context).describedGraph .normals).graph.diagnostics = [] := by
    decide +kernel
  have hdeclared : Description.normals.declarations ({} : Context).catalogue =
      [{ cls := .varying, type := "vec3", name := "vModelNormal" }] := by decide +kernel
  obtain ⟨program, hprogram, -, hdelivers⟩ := compileProgram_delivers {} [] [] .normals huncut
  refine ⟨huncut, program, hprogram, ?_⟩
  rw [hdeclared] at hdelivers
  rcases hdelivers _ List.mem_cons_self with ⟨type, hreported⟩ | hdelivers
  · rw [hdiagnostics] at hreported
    cases hreported
  · refine hdelivers fun w hw => ?_
    cases hw
    rfl

end Context

end SceneShading
