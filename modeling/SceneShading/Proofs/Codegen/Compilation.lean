import Mathlib.Tactic
import SceneShading.Proofs.Codegen.Emission
import SceneShading.Proofs.Graph.Walk
import SceneShading.Proofs.Source.Process

/-!
# Compiling sound graphs

A sound graph compiles from its roots without any problem: all of its operations become statements
(`Graph.Sound.yields_checkedStatement`), and the parts that a source is assembled from hold no
directive but include lines of library files (`Graph.Sound.tame_assemble`).

The declarations of a source are those of the variables of file scope that the roots reach, and those
of all registered locals. No two of them have the same name (`Graph.Sound.nodup_declaredNames`), and
the variables that a statement names are among them (`Graph.Sound.mem_declaredNames`), since a walk
reaches the inputs of an operation, and an operation writes locals, built-in outputs and roots only.
-/

namespace SceneShading

variable {g : Graph} {roots : List NodeId} {id : NodeId} {n : Node}

/-! ## Declarations -/

namespace Graph

/-- The variables that are declared at file scope: those that the roots reach. -/
def fileVariables (g : Graph) (roots : List NodeId) : List Variable :=
  (g.nodesOf (g.traverse roots)).filterMap fun n =>
    n.kind.declared?.filter fun v => v.globalDeclaration.isSome

/-- The variables that are declared inside `main`: all that are registered. -/
def localVariables (g : Graph) : List Variable :=
  g.registered.filterMap fun n => n.kind.declared?.filter fun v => v.localDeclaration.isSome

/-- The names that are declared in the source of a graph, with repetitions. -/
def declaredNames (g : Graph) (roots : List NodeId) : List String :=
  (g.fileVariables roots ++ g.localVariables).map (·.name)

/-- The declarations at file scope are those of the variables there. -/
lemma filterMap_globalDeclaration (g : Graph) (roots : List NodeId) :
    (g.nodesOf (g.traverse roots)).filterMap Node.globalDeclaration =
      (g.fileVariables roots).filterMap Variable.globalDeclaration := by
  rw [fileVariables, List.filterMap_filterMap]
  refine List.filterMap_congr fun n _ => ?_
  rw [Node.globalDeclaration]
  cases n.kind.declared? with
  | none => rfl
  | some v => cases h : v.globalDeclaration <;> simp [h, Option.filter]

/-- The declarations inside `main` are those of the variables there. -/
lemma filterMap_localDeclaration (g : Graph) :
    g.registered.filterMap Node.localDeclaration =
      g.localVariables.filterMap Variable.localDeclaration := by
  rw [localVariables, List.filterMap_filterMap]
  refine List.filterMap_congr fun n _ => ?_
  rw [Node.localDeclaration]
  cases n.kind.declared? with
  | none => rfl
  | some v => cases h : v.localDeclaration <;> simp [h, Option.filter]

/-- The numbers of the nodes that a walk lists are those of nodes. -/
lemma mem_nodesOf {ids : List NodeId} :
    n ∈ g.nodesOf ids ↔ ∃ id ∈ ids, g.node? id = some n := List.mem_filterMap

/-- The variables at file scope. -/
lemma mem_fileVariables {v : Variable} :
    v ∈ g.fileVariables roots ↔ ∃ id ∈ g.traverse roots,
      g.declared? id = some v ∧ v.globalDeclaration.isSome := by
  simp only [fileVariables, List.mem_filterMap, mem_nodesOf, Option.filter_eq_some_iff, declared?,
    Option.bind_eq_some_iff]
  constructor
  · rintro ⟨n, ⟨id, hid, hn⟩, hv, hglobal⟩
    exact ⟨id, hid, ⟨n, hn, hv⟩, hglobal⟩
  · rintro ⟨id, hid, ⟨n, hn, hv⟩, hglobal⟩
    exact ⟨n, ⟨id, hid, hn⟩, hv, hglobal⟩

/-- The block of the locals declares the variables inside `main`. -/
lemma localBlock_eq (hlocals : g.localVariables ≠ []) :
    localBlock g = ["// vars\n" ++
      " ".intercalate (g.localVariables.filterMap Variable.localDeclaration) ++
        "\n// end vars\n"] := by
  have hdeclared : g.localVariables.filterMap Variable.localDeclaration ≠ [] := by
    obtain ⟨v, hv⟩ := List.exists_mem_of_ne_nil _ hlocals
    obtain ⟨n, -, hn⟩ := List.mem_filterMap.1 hv
    obtain ⟨d, hd⟩ := Option.isSome_iff_exists.1 (Option.filter_eq_some_iff.1 hn).2
    exact List.ne_nil_of_mem (List.mem_filterMap.2 ⟨v, hv, hd⟩)
  rw [localBlock, filterMap_localDeclaration]
  exact if_neg (by rwa [List.isEmpty_iff])

section Registered

variable (hnodup : g.registry.names.Nodup)
  (hregistered : ∀ name id, g.find? name = some id → ∃ v, g.declared? id = some v ∧ v.name = name)

include hnodup hregistered

/-- The variables inside `main` are the registered ones that are no variables of file scope. -/
lemma mem_localVariables_iff {v : Variable} : v ∈ g.localVariables ↔
    (∃ id, g.find? v.name = some id ∧ g.declared? id = some v) ∧ v.localDeclaration.isSome := by
  have hmem : ∀ n : Node, n ∈ g.registered ↔ ∃ e ∈ g.registry.entries, g.node? e.2 = some n :=
    fun n => List.mem_filterMap
  simp only [localVariables, List.mem_filterMap, hmem, Option.filter_eq_some_iff]
  constructor
  · rintro ⟨n, ⟨e, he, hn⟩, hv, hlocal⟩
    have hdeclared : g.declared? e.2 = some v := by rw [declared?, hn, Option.bind_some, hv]
    have hfind := Registry.find?_of_mem_entries hnodup he
    obtain ⟨w, hw, hname⟩ := hregistered e.1 e.2 hfind
    obtain rfl : v = w := Option.some.inj (hdeclared.symm.trans hw)
    exact ⟨⟨e.2, hname ▸ hfind, hdeclared⟩, hlocal⟩
  · rintro ⟨⟨id, hfind, hv⟩, hlocal⟩
    obtain ⟨n, hn, hdeclared⟩ := Option.bind_eq_some_iff.1 hv
    obtain ⟨before, after, hsplit, -⟩ := List.lookup_eq_some_iff.1 hfind
    refine ⟨n, ⟨(v.name, id), ?_, hn⟩, hdeclared, hlocal⟩
    rw [hsplit]
    exact List.mem_append_right _ List.mem_cons_self

/-- No two variables inside `main` have the same name. -/
lemma nodup_localNames : (g.localVariables.map (·.name)).Nodup := by
  let isLocal (e : String × NodeId) : Bool :=
    ((g.declared? e.2).filter fun v => v.localDeclaration.isSome).isSome
  -- the names are those of the registry, but for those of variables at file scope
  have hnames : g.localVariables.map (·.name) = (g.registry.entries.filter isLocal).map (·.1) := by
    rw [localVariables, Graph.registered, List.filterMap_filterMap, List.map_filterMap,
      ← List.filterMap_eq_map, List.filterMap_filter]
    refine List.filterMap_congr fun e he => ?_
    obtain ⟨v, hv, hname⟩ := hregistered e.1 e.2 (Registry.find?_of_mem_entries hnodup he)
    obtain ⟨n, hn, hdeclared⟩ := Option.bind_eq_some_iff.1 hv
    have hlocal : isLocal e = v.localDeclaration.isSome := by
      simp only [isLocal, hv]
      cases hlocal : v.localDeclaration <;> simp [hlocal, Option.filter]
    rw [hn, Option.bind_some, hdeclared, hlocal]
    cases hsome : v.localDeclaration <;> simp [hsome, hname, Option.filter]
  rw [hnames]
  exact (List.filter_sublist.map _).nodup hnodup

end Registered

namespace Sound

variable (h : g.Sound roots)

include h

/-- Every variable has a name of its own. -/
lemma eq_of_name {id' : NodeId} {v v' : Variable} (hv : g.declared? id = some v)
    (hv' : g.declared? id' = some v') (hname : v.name = v'.name) : id = id' := by
  have hid := (h.registered v'.name id).2 ⟨v, hv, hname⟩
  have hid' := (h.registered v'.name id').2 ⟨v', hv', rfl⟩
  exact Option.some.inj (hid.symm.trans hid')

/-- The variables inside `main`. -/
lemma mem_localVariables {v : Variable} :
    v ∈ g.localVariables ↔ ∃ id, g.declared? id = some v ∧ v.localDeclaration.isSome := by
  rw [mem_localVariables_iff h.names_nodup fun name id => (h.registered name id).1]
  constructor
  · rintro ⟨⟨id, -, hv⟩, hlocal⟩
    exact ⟨id, hv, hlocal⟩
  · rintro ⟨id, hv, hlocal⟩
    exact ⟨⟨id, (h.registered v.name id).2 ⟨v, hv, rfl⟩, hv⟩, hlocal⟩

/-- No two variables at file scope have the same name. -/
lemma nodup_fileNames : ((g.fileVariables roots).map (·.name)).Nodup := by
  have hnames : (g.fileVariables roots).map (·.name) =
      (g.traverse roots).filterMap fun id => ((g.declared? id).filter fun v =>
        v.globalDeclaration.isSome).map (·.name) := by
    rw [fileVariables, nodesOf, List.filterMap_filterMap, List.map_filterMap]
    refine List.filterMap_congr fun id _ => ?_
    rw [declared?]
    cases g.node? id <;> rfl
  rw [hnames]
  refine (g.nodup_traverse roots).filterMap fun id id' name hid hid' => ?_
  rw [Option.mem_def, Option.map_eq_some_iff] at hid hid'
  obtain ⟨v, hv, rfl⟩ := hid
  obtain ⟨v', hv', hname⟩ := hid'
  exact h.eq_of_name (Option.filter_eq_some_iff.1 hv).1 (Option.filter_eq_some_iff.1 hv').1
    hname.symm

/-- No two variables that are declared in the source have the same name. -/
lemma nodup_declaredNames : (g.declaredNames roots).Nodup := by
  rw [declaredNames, List.map_append, List.nodup_append]
  have hlocals := nodup_localNames h.names_nodup fun name id => (h.registered name id).1
  refine ⟨h.nodup_fileNames, hlocals, fun name hname name' hname' heq => ?_⟩
  obtain ⟨v, hv, rfl⟩ := List.mem_map.1 hname
  obtain ⟨v', hv', rfl⟩ := List.mem_map.1 hname'
  obtain ⟨id, -, hdeclared, hglobal⟩ := mem_fileVariables.1 hv
  obtain ⟨id', hdeclared', hlocal⟩ := h.mem_localVariables.1 hv'
  -- a variable is declared in one of the two places
  obtain rfl := h.eq_of_name hdeclared hdeclared' heq
  rw [hdeclared] at hdeclared'
  cases hdeclared'
  rw [v.isSome_localDeclaration, Option.isNone_iff_eq_none] at hlocal
  rw [hlocal] at hglobal
  cases hglobal

/-- A variable that a node reached from the roots is wired to is declared in the source. -/
lemma mem_declaredNames (hid : id ∈ g.traverse roots) (hn : g.node? id = some n)
    (hoperation : n.kind.isOperation = true) {other : NodeId}
    (hother : other ∈ n.inputNodes ++ n.outputs.targets) {v : Variable}
    (hv : g.declared? other = some v) : v.name ∈ g.declaredNames roots := by
  rw [declaredNames, List.map_append]
  by_cases hlocal : v.localDeclaration.isSome
  · refine List.mem_append_right _ (List.mem_map_of_mem ?_)
    exact h.mem_localVariables.2 ⟨other, hv, hlocal⟩
  · have hglobal : v.globalDeclaration.isSome := by
      rw [v.isSome_localDeclaration, Bool.not_eq_true, Option.isNone_eq_false_iff] at hlocal
      exact hlocal
    have hexists : (g.node? other).isSome := by
      obtain ⟨m, hm, -⟩ := Option.bind_eq_some_iff.1 hv
      rw [hm, Option.isSome_some]
    refine List.mem_append_left _ (List.mem_map_of_mem (mem_fileVariables.2 ⟨other, ?_, hv, hglobal⟩))
    rcases List.mem_append.1 hother with hinput | htarget
    · exact mem_traverse_of_input hid hn hinput hexists
    · have hwritable := ((h.settled id n hn).wiring hoperation).outputs other htarget
      exact mem_traverse_of_root ((hwritable.2 v hv).resolve_left hlocal) hexists

/-- The texts of operands are plain. -/
lemma plainOperands : g.PlainOperands := by
  intro id o ho
  cases hv : g.declared? id with
  | some v =>
    rw [operand?_of_declared? hv] at ho
    cases ho
    have hfits := h.fits id v hv
    exact ⟨hfits.name, fun type htype => Option.some.inj htype ▸ hfits.type⟩
  | none =>
    obtain ⟨m, hm, hoperand⟩ := Option.bind_eq_some_iff.1 ho
    rw [declared?, hm, Option.bind_some] at hv
    cases hkind : m.kind with
    | var v => rw [hkind] at hv; cases hv
    | output b =>
      rw [hkind] at hoperand
      cases hoperand
      cases b <;> exact ⟨by decide, by decide⟩
    | _ => rw [hkind] at hoperand; cases hoperand

/-- Every node of a sound graph that is an operation becomes a statement; other nodes need none. -/
lemma yields_checkedStatement (hn : g.node? id = some n) (debug : Bool) :
    Yields (g.checkedStatement debug n) fun s => ∀ statement ∈ s, statement.Of g n := by
  by_cases hoperation : n.kind.isOperation = true
  · obtain ⟨s, hs, statement, rfl, hof⟩ :=
      ((h.settled id n hn).wiring hoperation).yields_statement h.plainOperands debug hoperation
    exact ⟨_, hs, fun other hother => Option.some.inj hother ▸ hof⟩
  · have hvalid : n.validate = .ok () := by
      rw [Node.validate_eq_ok_iff]
      cases hkind : n.kind <;>
        simp_all [NodeKind.isOperation, NodeKind.requiredInputs, NodeKind.requiredOutputs]
    refine ⟨none, ?_, by simp⟩
    rw [checkedStatement, hvalid]
    simp only [statement]
    cases hkind : n.kind <;> simp_all [NodeKind.isOperation]

/-- The lines of `main` are plain, and there is no problem with them. -/
lemma ofNodes_clean (debug : Bool) {nodes : List Node}
    (hnodes : ∀ n ∈ nodes, ∃ id, g.node? id = some n) :
    (MainBody.ofNodes g debug nodes).diagnostics = [] ∧
      ∀ line ∈ (MainBody.ofNodes g debug nodes).lines, IsPlain line := by
  induction nodes with
  | nil => exact ⟨rfl, List.forall_mem_nil _⟩
  | cons n nodes ih =>
    obtain ⟨⟨id, hn⟩, hrest⟩ := List.forall_mem_cons.1 hnodes
    obtain ⟨hdiagnostics, hlines⟩ := ih hrest
    have hnode : (MainBody.ofNode g debug n).diagnostics = [] ∧
        ∀ line ∈ (MainBody.ofNode g debug n).lines, IsPlain line := by
      obtain ⟨s, hs, hof⟩ := h.yields_checkedStatement hn debug
      rw [MainBody.ofNode, hs]
      cases s with
      | none => exact ⟨rfl, List.forall_mem_nil _⟩
      | some statement =>
        refine ⟨rfl, fun line hline => ?_⟩
        simp only [MainBody.linesOf] at hline
        split at hline
        · cases hline
        · rcases List.mem_append.1 hline with hcomment | htext
          · exact (h.settled id n hn).comment line (Option.mem_toList.1 hcomment)
          · rw [List.mem_singleton.1 htext]
            exact (hof statement rfl).render
    have hcons : MainBody.ofNodes g debug (n :: nodes) =
        (MainBody.ofNode g debug n).append (MainBody.ofNodes g debug nodes) := rfl
    rw [hcons]
    refine ⟨?_, List.forall_mem_append.2 ⟨hnode.2, hlines⟩⟩
    rw [MainBody.append, hnode.1, hdiagnostics, List.append_nil]

/-- The lines of the nodes that the roots reach are plain, and there is no problem with them. -/
lemma reached_clean (debug : Bool) :
    (MainBody.ofNodes g debug (g.nodesOf (g.traverse roots))).diagnostics = [] ∧
      ∀ line ∈ (MainBody.ofNodes g debug (g.nodesOf (g.traverse roots))).lines, IsPlain line :=
  h.ofNodes_clean debug fun _ hn => (mem_nodesOf.1 hn).imp fun _ hid => hid.2

/-! ## The source -/

omit h in
/-- Plain declarations are plain when they are laid out. -/
lemma isPlain_layoutDeclarations {declarations : List String}
    (hplain : ∀ d ∈ declarations, IsPlain d) : IsPlain (layoutDeclarations declarations) := by
  fun_induction layoutDeclarations with
  | case1 => decide
  | case2 d => exact hplain d List.mem_cons_self
  | case3 d e r gap ih =>
    obtain ⟨hfirst, hrest⟩ := List.forall_mem_cons.1 hplain
    have hgap : IsPlain gap := by
      simp only [gap]
      split <;> decide
    exact isPlain_append.2 ⟨isPlain_append.2 ⟨hfirst, hgap⟩, ih hrest⟩

omit h in
/-- The declarations of a plain variable are plain. -/
lemma isPlain_declaration {v : Variable} {size : Nat} (hv : v.Fits size) :
    (∀ d ∈ v.globalDeclaration, IsPlain d) ∧ ∀ d ∈ v.localDeclaration, IsPlain d := by
  obtain ⟨-, hname, htype, hvalue⟩ := hv
  obtain ⟨cls, type, name, value, size⟩ := v
  have hdigits : ∀ n : Nat, IsPlain n.repr := isPlain_toString
  cases cls <;> cases value <;> cases size <;>
    simp_all +decide [Variable.globalDeclaration, Variable.localDeclaration]

/-- The declarations at file scope are plain. -/
lemma isPlain_globalBlock : IsPlain (globalBlock g.stage (g.nodesOf (g.traverse roots))) := by
  refine isPlain_layoutDeclarations fun d hd => ?_
  rw [(orderDeclarations_perm _ _).mem_iff, filterMap_globalDeclaration, List.mem_filterMap] at hd
  obtain ⟨v, hv, hdeclaration⟩ := hd
  obtain ⟨id, -, hdeclared, -⟩ := mem_fileVariables.1 hv
  exact (isPlain_declaration (h.fits id v hdeclared)).1 d hdeclaration

/-- The declarations inside `main` are plain. -/
lemma isPlain_localBlock : ∀ block ∈ localBlock g, IsPlain block := by
  intro block hblock
  rw [localBlock] at hblock
  split at hblock
  · cases hblock
  · rw [List.mem_singleton.1 hblock, isPlain_append, isPlain_append]
    refine ⟨⟨by decide, isPlain_intercalate (by decide) fun d hd => ?_⟩, by decide⟩
    rw [filterMap_localDeclaration, List.mem_filterMap] at hd
    obtain ⟨v, hv, hdeclaration⟩ := hd
    obtain ⟨id, hdeclared, -⟩ := h.mem_localVariables.1 hv
    exact (isPlain_declaration (h.fits id v hdeclared)).2 d hdeclaration

omit h in
/-- The list of the targets that the morph function takes is plain. -/
lemma isPlain_morphParameters (targets : Nat) : IsPlain (Node.morphParameters targets) := by
  refine isPlain_join fun text htext => ?_
  obtain ⟨i, -, rfl⟩ := List.mem_map.1 htext
  have htarget : IsPlain (targetPin i) := isPlain_append.2 ⟨by decide, isPlain_toString i⟩
  exact isPlain_append.2 ⟨by decide, htarget⟩

omit h in
/-- The body of the morph function is plain. -/
lemma isPlain_morphBody (targets : Nat) : IsPlain (Node.morphBody targets) := by
  have hweight : ∀ i : Nat, IsPlain ("weights[" ++ toString i ++ "]") := fun i =>
    isPlain_append.2 ⟨isPlain_append.2 ⟨by decide, isPlain_toString i⟩, by decide⟩
  have htarget : ∀ i : Nat, IsPlain (targetPin i) := fun i =>
    isPlain_append.2 ⟨by decide, isPlain_toString i⟩
  rw [Node.morphBody]
  split
  · decide
  · have hfirst : IsPlain "\tvec3 vecOut = vertex * (1.0 - ( " := by decide
    have hlast : IsPlain "\treturn vecOut" := by decide
    refine isPlain_append.2 ⟨isPlain_append.2 ⟨isPlain_append.2
      ⟨isPlain_append.2 ⟨hfirst, ?_⟩, by decide⟩, ?_⟩, hlast⟩
    · refine isPlain_intercalate (by decide) fun text htext => ?_
      obtain ⟨i, -, rfl⟩ := List.mem_map.1 htext
      exact hweight i
    · refine isPlain_join fun text htext => ?_
      obtain ⟨i, -, rfl⟩ := List.mem_map.1 htext
      have hsum : IsPlain "\tvecOut += " := by decide
      exact isPlain_append.2 ⟨isPlain_append.2 ⟨isPlain_append.2
        ⟨isPlain_append.2 ⟨hsum, htarget i⟩, by decide⟩, hweight i⟩, by decide⟩

omit h in
/-- The morph function is plain. -/
lemma isPlain_morphFunction (n : Node) : IsPlain n.morphFunction := by
  have hfirst : IsPlain "vec3 morphTransform( const in vec4 weights,  const in vec3 vertex" := by
    decide
  exact isPlain_append.2 ⟨isPlain_append.2 ⟨isPlain_append.2
    ⟨isPlain_append.2 ⟨hfirst, isPlain_morphParameters _⟩, by decide⟩, isPlain_morphBody _⟩,
    by decide⟩

omit h in
/-- The lines that include the files of the library are tame. -/
lemma tame_includeLine {file : String} (hfile : file ∈ ["functions.glsl", "textures.glsl",
    "lights.glsl", "skinning.glsl", "billboard.glsl", "shadowsReceive.glsl",
    "shadowsCastFrag.glsl"]) : Source.Tame {} (Node.includeLine file).toList := by
  have hchecked : ((Node.includeLine file).toList.all fun c => c != '\n' && c != '\r') = true ∧
      Source.Include.ofLine? (Node.includeLine file).toList = some ⟨file, []⟩ ∧
        (({} : Library).text? file).isSome = true := by
    simp only [List.mem_cons, List.not_mem_nil, or_false] at hfile
    rcases hfile with rfl | rfl | rfl | rfl | rfl | rfl | rfl <;> decide
  obtain ⟨hline, hinclude, htext⟩ := hchecked
  refine Source.tame_of_include (fun c hc => ?_) hinclude htext
  simpa using List.all_eq_true.1 hline c hc

omit h in
/-- The code that a node calls includes files of the library only. -/
lemma tame_functionDeclaration (n : Node) :
    ∀ text ∈ n.functionDeclaration, Source.Tame {} text.toList := by
  intro text htext
  rw [Node.functionDeclaration] at htext
  split at htext
  case h_8 =>
    cases htext
    exact Source.tame_of_isPlain (isPlain_morphFunction n)
  case h_9 => cases htext
  all_goals
    cases htext
    exact tame_includeLine (by simp only [List.mem_cons, true_or, or_true])

/-- The parts of a program are plain, or they include files of the library. -/
lemma tame_assemble (settings : Settings) :
    Source.Tame {} (assemble settings g (g.nodesOf (g.traverse roots))
      (MainBody.ofNodes g settings.debugNodes (g.nodesOf (g.traverse roots)))).toList := by
  have hlines := (h.reached_clean settings.debugNodes).2
  rw [assemble]
  refine Source.tame_intercalate fun part hpart => ?_
  simp only [List.mem_append, List.mem_cons, List.not_mem_nil, or_false] at hpart
  rcases hpart with ((((rfl | rfl) | hinvariant) | (rfl | rfl | rfl)) | hlocals) | (rfl | rfl)
  · exact Source.tame_of_isPlain (by decide)
  · exact Source.tame_of_isPlain h.isPlain_globalBlock
  · rw [invariantBlock] at hinvariant
    split at hinvariant
    · rw [List.mem_singleton.1 hinvariant]
      exact Source.tame_of_isPlain (by decide)
    · cases hinvariant
  · exact Source.tame_of_isPlain (by decide)
  · refine Source.tame_intercalate fun text htext => ?_
    obtain ⟨n, -, hn⟩ := List.mem_filterMap.1 htext
    exact tame_functionDeclaration n text hn
  · exact Source.tame_of_isPlain (by decide)
  · exact Source.tame_of_isPlain (h.isPlain_localBlock part hlocals)
  · exact Source.tame_of_isPlain (isPlain_intercalate (by decide) hlines)
  · exact Source.tame_of_isPlain (by decide)

/-- No problem is found when a sound graph is compiled from its roots. -/
lemma diagnostics_compileStage (pool : SymbolPool) (settings : Settings) (hroots : roots ≠ []) :
    (compileStage pool {} settings g roots).diagnostics = [] := by
  have hmain := (h.reached_clean settings.debugNodes).1
  have hprocessed := Source.process_diagnostics pool settings
    (collectDefines (g.nodesOf (g.traverse roots))) (collectExtensions (g.nodesOf (g.traverse roots)))
    (h.tame_assemble settings).closed
  have hroot : rootDiagnostics roots = [] := if_neg (by rwa [List.isEmpty_iff])
  rw [compileStage, ← traverse]
  simp only [h.diagnostics, hroot, hmain, hprocessed, List.append_nil]

end Sound

end Graph

/-! ## Compiled stages -/

/-- A text between the first and the last one is a block between two separators. -/
lemma exists_intercalate_eq {separator block head last : String} {texts : List String}
    (h : block ∈ texts) :
    ∃ before after, separator.intercalate (head :: (texts ++ [last])) =
      before ++ separator ++ (block ++ separator ++ after) := by
  induction texts generalizing head with
  | nil => cases h
  | cons text texts ih =>
    rw [List.cons_append, String.intercalate_cons_cons]
    rcases List.mem_cons.1 h with rfl | hrest
    · -- something follows, if only the last text
      obtain ⟨next, rest, hnext⟩ := List.exists_cons_of_ne_nil (l := texts ++ [last]) (by simp)
      exact ⟨head, separator.intercalate (next :: rest), by
        rw [hnext, String.intercalate_cons_cons]⟩
    · obtain ⟨before, after, hsplit⟩ := @ih text hrest
      refine ⟨head ++ separator ++ before, after, ?_⟩
      rw [hsplit]
      simp only [String.append_assoc]

/-- The parts of a program: line feeds, the inner parts, and the end of `main`. -/
lemma assemble_eq (settings : Settings) (g : Graph) (nodes : List Node) (main : MainBody) :
    assemble settings g nodes main = "\n".intercalate ("\n" :: ((globalBlock g.stage nodes ::
      (invariantBlock settings g.stage ++ ["\n", "\n".intercalate (collectFunctions nodes),
        "void main() \x7b"] ++ localBlock g ++ ["\n".intercalate main.lines])) ++ ["\x7d"])) := by
  rw [assemble]
  simp only [List.append_assoc, List.cons_append, List.nil_append]

/-- The stage has no problem, its variables have names of their own, every variable that a statement
names is declared once, and the declarations and the statements are blocks of the source. -/
structure CompiledStage.Complete (settings : Settings) (g : Graph) (roots : List NodeId)
    (c : CompiledStage) : Prop where
  diagnostics : c.diagnostics = []
  names : ∀ id id' v v', g.declared? id = some v → g.declared? id' = some v' → v.name = v'.name →
    id = id'
  declared : ∀ id ∈ g.traverse roots, ∀ n, g.node? id = some n → ∀ s,
    g.checkedStatement settings.debugNodes n = .ok (some s) → ∀ o ∈ s.operands,
      (∃ output, (NodeKind.output output).operand? = some o) ∨
        (g.declaredNames roots).count o.name = 1
  fileBlock : (layoutDeclarations (orderDeclarations g.stage
    ((g.fileVariables roots).filterMap Variable.globalDeclaration))).toList <:+: c.source.toList
  localBlock : g.localVariables ≠ [] →
    ("// vars\n" ++ " ".intercalate (g.localVariables.filterMap Variable.localDeclaration) ++
      "\n// end vars\n").toList <:+: c.source.toList
  main : ("\n".intercalate
    (MainBody.ofNodes g settings.debugNodes (g.nodesOf (g.traverse roots))).lines).toList <:+:
      c.source.toList

/-- The inner part of a program: the declarations at file scope, those inside `main`, or the lines of
`main`. -/
def Graph.IsPart (settings : Settings) (g : Graph) (roots : List NodeId) (part : String) : Prop :=
  part ∈ globalBlock g.stage (g.nodesOf (g.traverse roots)) ::
    (localBlock g ++ ["\n".intercalate (MainBody.ofNodes g settings.debugNodes
      (g.nodesOf (g.traverse roots))).lines])

/-- An inner part of the program is a block of it. -/
lemma Graph.IsPart.exists_assemble_eq {settings : Settings} {part : String}
    (hpart : g.IsPart settings roots part) :
    ∃ before after, assemble settings g (g.nodesOf (g.traverse roots)) (MainBody.ofNodes g
      settings.debugNodes (g.nodesOf (g.traverse roots))) =
        before ++ "\n" ++ (part ++ "\n" ++ after) := by
  have hmem : part ∈ globalBlock g.stage (g.nodesOf (g.traverse roots)) ::
      (invariantBlock settings g.stage ++ ["\n",
        "\n".intercalate (collectFunctions (g.nodesOf (g.traverse roots))), "void main() \x7b"] ++
        localBlock g ++ ["\n".intercalate (MainBody.ofNodes g settings.debugNodes
          (g.nodesOf (g.traverse roots))).lines]) := by
    simp only [IsPart, List.mem_cons, List.mem_append] at hpart ⊢
    tauto
  obtain ⟨before, after, hsplit⟩ := @exists_intercalate_eq "\n" part "\n" "\x7d" _ hmem
  exact ⟨before, after, by rw [assemble_eq, hsplit]⟩

/-- The source that a graph is compiled to: its program, processed. -/
lemma Graph.source_compileStage (pool : SymbolPool) (lib : Library) (settings : Settings)
    (g : Graph) (roots : List NodeId) :
    (compileStage pool lib settings g roots).source =
      (Source.process pool lib settings (assemble settings g (g.nodesOf (g.traverse roots))
        (MainBody.ofNodes g settings.debugNodes (g.nodesOf (g.traverse roots))))
        (collectDefines (g.nodesOf (g.traverse roots)))
        (collectExtensions (g.nodesOf (g.traverse roots)))).source := by
  rw [compileStage, traverse]

/-- A plain block of the program is a block of the source. -/
lemma Graph.infix_of_assemble_eq (pool : SymbolPool) {settings : Settings}
    {before block after : String} (hplain : IsPlain block)
    (h : assemble settings g (g.nodesOf (g.traverse roots)) (MainBody.ofNodes g
      settings.debugNodes (g.nodesOf (g.traverse roots))) =
        before ++ "\n" ++ (block ++ "\n" ++ after)) :
    block.toList <:+: (compileStage pool {} settings g roots).source.toList := by
  rw [source_compileStage, h]
  exact Source.infix_process pool settings _ _ before after hplain

/-- A plain inner part of the program is a block of the source. -/
lemma Graph.infix_compileStage (pool : SymbolPool) (settings : Settings) {block : String}
    (hblock : g.IsPart settings roots block) (hplain : IsPlain block) :
    block.toList <:+: (compileStage pool {} settings g roots).source.toList := by
  obtain ⟨before, after, hsplit⟩ := hblock.exists_assemble_eq
  exact infix_of_assemble_eq pool hplain hsplit

namespace Graph.Sound

variable (h : g.Sound roots)

include h

omit h in
/-- Only operations become statements. -/
lemma isOperation_of_checkedStatement {debug : Bool} {s : Statement}
    (hs : g.checkedStatement debug n = .ok (some s)) : n.kind.isOperation = true := by
  by_contra hvariable
  rw [checkedStatement] at hs
  split at hs
  · cases hkind : n.kind <;> simp_all [statement, NodeKind.isOperation]
  · cases hs

/-- Every operand of a statement is a built-in output, or a variable that is declared once. -/
lemma count_declaredNames (hid : id ∈ g.traverse roots) (hn : g.node? id = some n) {debug : Bool}
    {s : Statement} (hs : g.checkedStatement debug n = .ok (some s)) {o : Operand}
    (ho : o ∈ s.operands) :
    (∃ output, (NodeKind.output output).operand? = some o) ∨
      (g.declaredNames roots).count o.name = 1 := by
  have hoperation := isOperation_of_checkedStatement hs
  obtain ⟨_, hyields, statement, rfl, hof⟩ :=
    ((h.settled id n hn).wiring hoperation).yields_statement h.plainOperands debug hoperation
  obtain rfl : statement = s := Option.some.inj (Except.ok.inj (hyields.symm.trans hs))
  obtain ⟨other, hother, hoperand⟩ := (hof.operands o ho).wired
  cases hv : g.declared? other with
  | some v =>
    rw [operand?_of_declared? hv] at hoperand
    cases hoperand
    refine .inr (List.count_eq_one_of_mem h.nodup_declaredNames ?_)
    exact h.mem_declaredNames hid hn hoperation hother hv
  | none =>
    obtain ⟨m, hm, hkind⟩ := Option.bind_eq_some_iff.1 hoperand
    rw [declared?, hm, Option.bind_some] at hv
    generalize m.kind = kind at hkind hv
    cases kind with
    | output b => exact .inl ⟨b, hkind⟩
    | var v => cases hv
    | _ => cases hkind

/-- A sound graph is compiled from its roots without any problem, and nothing is missing. -/
theorem complete_compileStage (pool : SymbolPool) (settings : Settings) (hroots : roots ≠ []) :
    (compileStage pool {} settings g roots).Complete settings g roots where
  diagnostics := h.diagnostics_compileStage pool settings hroots
  names id id' v v' hv hv' hname := h.eq_of_name hv hv' hname
  declared id hid n hn s hs o ho := h.count_declaredNames hid hn hs ho
  fileBlock := by
    rw [← filterMap_globalDeclaration]
    exact infix_compileStage pool settings List.mem_cons_self h.isPlain_globalBlock
  localBlock hlocals := by
    have hblock := localBlock_eq hlocals
    exact infix_compileStage pool settings
      (List.mem_cons_of_mem _ (List.mem_append_left _ (hblock ▸ List.mem_cons_self)))
      (h.isPlain_localBlock _ (hblock ▸ List.mem_cons_self))
  main := by
    have hlines := (h.reached_clean settings.debugNodes).2
    exact infix_compileStage pool settings
      (List.mem_cons_of_mem _ (List.mem_append_right _ List.mem_cons_self))
      (isPlain_intercalate (by decide) hlines)

end Graph.Sound

end SceneShading
