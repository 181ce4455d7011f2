import Mathlib.Tactic
import SceneShading.Proofs.Program.Described

/-!
# Validating and building descriptions

Validation reads the names of a description, building resolves them to the nodes that were created
for them. The two agree: where validation finds nothing wrong and the catalogue makes every node,
building resolves every reference and every root, and what it reports are variables of one name and
two types, and literals among the outputs (`Description.validate_agrees_build`).

Nodes are created before any of them is wired. So the first half is about a graph that grows
(`Graph.Retains`) and the identifiers created so far (`Description.Creating`), and the second one about
what resolving and wiring add to the problems, which is known for every reference
(`Description.outputProblems`).
-/

namespace SceneShading

namespace Description

open SceneShading.Graph

variable {catalogue : Catalogue} {g g' g'' : Graph} {ids : BuiltIds} {α β : Type}

/-! ## Validation -/

/-- The reference starts with the literal mark. -/
def IsLiteral (reference : String) : Prop := reference.toList.head? = some '='

instance : DecidablePred IsLiteral := fun reference =>
  inferInstanceAs (Decidable (reference.toList.head? = some '='))

/-- The identifiers are distinct, and whatever a description names is one of them. -/
structure Valid (d : Description) : Prop where
  rooted : d.roots ≠ []
  distinct : d.ids.Nodup
  /-- References among the inputs and outputs of nodes, in all forms of these. -/
  references : ∀ n ∈ d.nodes, ∀ reference ∈ n.references, IsLiteral reference ∨ reference ∈ d.ids
  roots : ∀ root ∈ d.roots, root ∈ d.ids

lemma isSome_literal?_iff {reference : String} :
    (literal? reference).isSome ↔ IsLiteral reference := by
  unfold literal? IsLiteral
  split
  next text h => simp [h]
  next h =>
    cases hchars : reference.toList with
    | nil => simp
    | cons c cs =>
      have hne : c ≠ '=' := by
        rintro rfl
        exact h cs hchars
      simp [hne]

lemma literal?_eq_none_iff {reference : String} : literal? reference = none ↔ ¬IsLiteral reference := by
  rw [← isSome_literal?_iff, Option.not_isSome_iff_eq_none]

/-- No identifier was seen before exactly if all are distinct, and distinct from those seen at the
start. -/
lemma firstDuplicate?_eq_none_iff {seen ids : List String} :
    firstDuplicate? seen ids = none ↔ ids.Nodup ∧ ∀ id ∈ ids, id ∉ seen := by
  induction ids generalizing seen with
  | nil => simp [firstDuplicate?]
  | cons id ids ih =>
    rw [firstDuplicate?]
    by_cases hid : id ∈ seen
    · simp [hid]
    · rw [if_neg (by simpa using hid), ih, List.nodup_cons]
      constructor
      · rintro ⟨hnodup, hnew⟩
        refine ⟨⟨fun hmem => hnew id hmem List.mem_cons_self, hnodup⟩, fun other hother => ?_⟩
        rcases List.mem_cons.1 hother with rfl | hother
        · exact hid
        · exact fun hseen => hnew other hother (List.mem_cons_of_mem _ hseen)
      · rintro ⟨⟨hfirst, hnodup⟩, hnew⟩
        refine ⟨hnodup, fun other hother hseen => ?_⟩
        rcases List.mem_cons.1 hseen with rfl | hseen
        · exact hfirst hother
        · exact hnew other (List.mem_cons_of_mem _ hother) hseen

lemma resolves_iff {d : Description} {reference : String} :
    d.resolves reference = true ↔ IsLiteral reference ∨ reference ∈ d.ids := by
  rw [resolves, Bool.or_eq_true, isSome_literal?_iff, List.contains_iff_mem]

/-- A validated description is valid, and the other way round. -/
lemma validate_eq_ok_iff (d : Description) : d.validate = .ok () ↔ d.Valid := by
  have hduplicate : firstDuplicate? [] d.ids = none ↔ d.ids.Nodup := by
    simp [firstDuplicate?_eq_none_iff]
  have hunresolved : d.firstUnresolved? = none ↔
      ∀ n ∈ d.nodes, ∀ reference ∈ n.references, IsLiteral reference ∨ reference ∈ d.ids := by
    rw [firstUnresolved?, List.find?_eq_none]
    constructor
    · intro h n hn reference hreference
      have hresolves := h (n.id, reference)
        (List.mem_flatMap.2 ⟨n, hn, List.mem_map.2 ⟨reference, hreference, rfl⟩⟩)
      simp only [Bool.not_eq_true', Bool.not_eq_false] at hresolves
      exact resolves_iff.1 hresolves
    · intro h r hr
      obtain ⟨n, hn, hr⟩ := List.mem_flatMap.1 hr
      obtain ⟨reference, hreference, rfl⟩ := List.mem_map.1 hr
      simpa using resolves_iff.2 (h n hn reference hreference)
  have hroots : (d.roots.find? fun root => !d.ids.contains root) = none ↔
      ∀ root ∈ d.roots, root ∈ d.ids := by
    simp [List.find?_eq_none]
  unfold validate
  constructor
  · intro h
    split at h
    next => cases h
    next hrooted =>
      split at h
      next => cases h
      next hdistinct =>
        split at h
        next => cases h
        next hreferences =>
          split at h
          next => cases h
          next hdeclared =>
            refine ⟨fun hnil => hrooted (by rw [hnil]; rfl), hduplicate.1 hdistinct,
              hunresolved.1 hreferences, hroots.1 hdeclared⟩
  · intro h
    have hrooted : ¬d.roots.isEmpty = true := fun hnil => h.rooted (List.isEmpty_iff.1 hnil)
    rw [if_neg hrooted, hduplicate.2 h.distinct, hunresolved.2 h.references, hroots.2 h.roots]

end Description

/-! ## Creating nodes -/

namespace Graph

variable {g g' g'' : Graph}

/-- Nodes go on to be what they are, and names to stand for the same nodes. -/
structure Retains (g g' : Graph) : Prop where
  grows : g.Grows g'
  names : ∀ name id, g.find? name = some id → g'.find? name = some id

lemma Retains.trans (h : Retains g g') (h' : Retains g' g'') : Retains g g'' :=
  ⟨h.grows.trans h'.grows, fun name id hid => h'.names name id (h.names name id hid)⟩

lemma Rewires.retains (h : Rewires g g') : Retains g g' := by
  refine ⟨fun id kind hkind => (h.kinds id).trans hkind, fun name id hid => ?_⟩
  rw [find?, h.registry]
  exact hid

/-- A check of a type reports at most that the types differ. -/
lemma diagnostics_checkType (g : Graph) (existing : NodeId) (name type : String) :
    ∃ problems, (∀ problem ∈ problems, ∃ other, other ≠ type ∧ problem = .typeMismatch name type other) ∧
      (g.checkType existing name type).2.diagnostics = g.diagnostics ++ problems := by
  unfold checkType
  split
  next w hw =>
    split
    next => exact ⟨[], List.forall_mem_nil _, (List.append_nil _).symm⟩
    next htype =>
      exact ⟨[.typeMismatch name type w.type], List.forall_mem_singleton.2 ⟨w.type, htype, rfl⟩, rfl⟩
  next => exact ⟨[], List.forall_mem_nil _, (List.append_nil _).symm⟩

/-- The node is one of the kind, or the variable that has the name of the kind. -/
def StandsFor (g : Graph) (kind : NodeKind) (id : NodeId) : Prop :=
  match kind with
  | .var v => g.find? v.name = some id
  | kind => g.kind? id = some kind

lemma StandsFor.retains {kind : NodeKind} {id : NodeId} (h : g.StandsFor kind id)
    (hg : Retains g g') : g'.StandsFor kind id := by
  cases kind with
  | var v => exact hg.names v.name id h
  | _ => exact hg.grows id _ h

end Graph

namespace Description

open SceneShading.Graph

variable {catalogue : Catalogue} {g g' g'' : Graph} {ids : BuiltIds} {α β : Type}

/-- A described variable was asked for with another type than it has. -/
def IsMismatch (catalogue : Catalogue) (nodes : List NodeDescription) (problem : Diagnostic) : Prop :=
  ∃ n ∈ nodes, ∃ v, catalogue.create n.nodeType n.args = .ok (.var v) ∧
    ∃ type, type ≠ v.type ∧ problem = .typeMismatch v.name v.type type

lemma IsMismatch.mono {nodes nodes' : List NodeDescription} {problem : Diagnostic}
    (h : IsMismatch catalogue nodes problem) (hsub : nodes ⊆ nodes') :
    IsMismatch catalogue nodes' problem := by
  obtain ⟨n, hn, hrest⟩ := h
  exact ⟨n, hsub hn, hrest⟩

/-- A node that the catalogue makes is created, or found under its name. -/
lemma createNode_of_create {n : NodeDescription} {kind : NodeKind}
    (hkind : catalogue.create n.nodeType n.args = .ok kind) (g : Graph) :
    ∃ id g', g.createNode catalogue n.nodeType n.args = (.ok id, g') ∧ g'.StandsFor kind id ∧
      Retains g g' ∧ ∃ problems, (∀ problem ∈ problems, IsMismatch catalogue [n] problem) ∧
        g'.diagnostics = g.diagnostics ++ problems := by
  have hnoted := g.quiet_noteIf (!catalogue.contains n.nodeType) (.unknownNodeType n.nodeType)
  have hretains : Retains g (g.noteIf (!catalogue.contains n.nodeType) (.unknownNodeType n.nodeType)) :=
    hnoted.rewires.retains
  have hdiagnostics : (g.noteIf (!catalogue.contains n.nodeType)
      (.unknownNodeType n.nodeType)).diagnostics = g.diagnostics := by
    unfold noteIf
    split <;> rfl
  unfold createNode
  generalize g.noteIf (!catalogue.contains n.nodeType) (.unknownNodeType n.nodeType) = g₁ at *
  rw [← hdiagnostics, hkind]
  cases kind with
  | var v =>
    cases hfind : g₁.find? v.name with
    | some existing =>
      have hchecked := (g₁.quiet_checkType existing v.name v.type).rewires.retains
      simp only [hfind]
      refine ⟨_, _, rfl, hchecked.names _ _ hfind, hretains.trans hchecked, ?_⟩
      obtain ⟨problems, hproblems, hreported⟩ := g₁.diagnostics_checkType existing v.name v.type
      refine ⟨problems, fun problem hproblem => ?_, hreported⟩
      obtain ⟨type, htype, rfl⟩ := hproblems problem hproblem
      exact ⟨n, List.mem_cons_self, v, hkind, type, htype, rfl⟩
    | none =>
      have hgains := g₁.gains_insertVariable v
      simp only [hfind]
      exact ⟨_, _, rfl, (hgains.find v.name).trans (if_pos rfl),
        hretains.trans ⟨hgains.grows, fun name id => hgains.find?_of_find? hfind⟩, [],
        List.forall_mem_nil _, hgains.diagnostics.trans (List.append_nil _).symm⟩
  | _ =>
    refine ⟨_, _, rfl, ?_, hretains.trans ⟨(g₁.builds_insert _).grows, fun _ _ hid => hid⟩, [],
      List.forall_mem_nil _, (List.append_nil _).symm⟩
    change (g₁.insert _).2.kind? g₁.size = _
    rw [kind?, node?_insert, if_pos rfl]
    rfl

/-- The nodes so far are created in a graph that had problems of its own. -/
structure Creating (catalogue : Catalogue) (old : List Diagnostic) (nodes : List NodeDescription)
    (s : BuiltIds × Graph) : Prop where
  ids : s.1.map (·.1) = (nodes.map (·.id)).reverse
  made : ∀ e ∈ s.1, ∃ n ∈ nodes, n.id = e.1 ∧ ∃ kind,
    catalogue.create n.nodeType n.args = .ok kind ∧ s.2.StandsFor kind e.2
  diagnostics : ∃ mismatches, (∀ problem ∈ mismatches, IsMismatch catalogue nodes problem) ∧
    s.2.diagnostics = old ++ mismatches

/-- One more node is created. -/
lemma Creating.step {old : List Diagnostic} {nodes : List NodeDescription} {s : BuiltIds × Graph}
    (h : Creating catalogue old nodes s) {n : NodeDescription}
    (hn : ∃ kind, catalogue.create n.nodeType n.args = .ok kind) :
    Creating catalogue old (nodes ++ [n]) (createStep catalogue s n) := by
  obtain ⟨kind, hkind⟩ := hn
  obtain ⟨id, g', hcreated, hstands, hretains, problems, hproblems, hadded⟩ :=
    createNode_of_create hkind s.2
  obtain ⟨mismatches, hmismatches, hold⟩ := h.diagnostics
  unfold createStep
  rw [hcreated]
  refine ⟨?_, fun e he => ?_, mismatches ++ problems, fun problem hproblem => ?_, ?_⟩
  · rw [List.map_cons, h.ids, List.map_append, List.reverse_append]
    rfl
  · rcases List.mem_cons.1 he with rfl | he
    · exact ⟨n, List.mem_append_right _ List.mem_cons_self, rfl, kind, hkind, hstands⟩
    · obtain ⟨m, hm, hid, kind', hkind', hstands'⟩ := h.made e he
      exact ⟨m, List.mem_append_left _ hm, hid, kind', hkind', hstands'.retains hretains⟩
  · rcases List.mem_append.1 hproblem with hproblem | hproblem
    · exact (hmismatches problem hproblem).mono (List.subset_append_left _ _)
    · exact (hproblems problem hproblem).mono (List.subset_append_right _ _)
  · rw [hadded, hold, List.append_assoc]

/-- All nodes are created. -/
lemma creating_createNodes (d : Description) (g : Graph)
    (h : ∀ n ∈ d.nodes, ∃ kind, catalogue.create n.nodeType n.args = .ok kind) :
    Creating catalogue g.diagnostics d.nodes (d.createNodes catalogue g) := by
  have hfold : ∀ (rest done : List NodeDescription) (s : BuiltIds × Graph),
      Creating catalogue g.diagnostics done s →
        (∀ n ∈ rest, ∃ kind, catalogue.create n.nodeType n.args = .ok kind) →
          Creating catalogue g.diagnostics (done ++ rest) (rest.foldl (createStep catalogue) s) := by
    intro rest
    induction rest with
    | nil => exact fun done s hs _ => (List.append_nil done).symm ▸ hs
    | cons n rest ih =>
      intro done s hs hrest
      have hstep := hs.step (hrest n List.mem_cons_self)
      have hall := ih (done ++ [n]) _ hstep fun m hm => hrest m (List.mem_cons_of_mem _ hm)
      rw [List.append_assoc] at hall
      exact hall
  refine hfold d.nodes [] ([], g) ⟨rfl, List.forall_mem_nil _, [], List.forall_mem_nil _, ?_⟩ h
  exact (List.append_nil _).symm

/-! ## Resolving references -/

/-- The reference is a literal, or was created. -/
def Known (ids : BuiltIds) (reference : String) : Prop :=
  IsLiteral reference ∨ (ids.lookup reference).isSome

/-- Every reference resolves with the problems that are foreseen for it. -/
lemma diagnostics_resolveEach {resolve : Graph → α → Option β × Graph}
    (problems : α → List Diagnostic) {xs : List α}
    (h : ∀ x ∈ xs, ∀ g, (resolve g x).2.diagnostics = g.diagnostics ++ problems x)
    (g : Graph) : (resolveEach resolve g xs).2.diagnostics = g.diagnostics ++ xs.flatMap problems := by
  have hfold : ∀ (found : List β) (g : Graph),
      (xs.foldl (fun (s : List β × Graph) x =>
        (s.1 ++ (resolve s.2 x).1.toList, (resolve s.2 x).2)) (found, g)).2.diagnostics =
          g.diagnostics ++ xs.flatMap problems := by
    induction xs with
    | nil => exact fun found g => (List.append_nil _).symm
    | cons x xs ih =>
      intro found g
      rw [List.foldl_cons, ih (fun y hy => h y (List.mem_cons_of_mem _ hy)),
        h x List.mem_cons_self, List.flatMap_cons, List.append_assoc]
  exact hfold [] g

/-- The same with pins. -/
lemma diagnostics_resolvePins {resolve : Graph → String → Option β × Graph}
    (problems : String → List Diagnostic) {pins : PinMap}
    (h : ∀ e ∈ pins.entries, ∀ g, (resolve g e.2).2.diagnostics = g.diagnostics ++ problems e.2)
    (g : Graph) :
    (resolvePins resolve g pins).2.diagnostics =
      g.diagnostics ++ (pins.entries.map (·.2)).flatMap problems := by
  rw [List.flatMap_map]
  let pinned (g : Graph) (e : String × String) : Option (String × β) × Graph :=
    ((resolve g e.2).1.map fun b => (e.1, b), (resolve g e.2).2)
  exact diagnostics_resolveEach (fun e : String × String => problems e.2)
    (show ∀ e ∈ pins.entries, ∀ g, (pinned g e).2.diagnostics = _ from h) g

lemma diagnostics_resolveSource {reference : String} (h : Known ids reference) (node : String)
    (g : Graph) : (resolveSource ids node g reference).2.diagnostics = g.diagnostics := by
  unfold resolveSource
  split
  next => rfl
  next hnone =>
    obtain ⟨id, hid⟩ := Option.isSome_iff_exists.1 (h.resolve_left (literal?_eq_none_iff.1 hnone))
    rw [hid]

/-- The problem with a literal among the outputs. -/
def literalProblem (reference : String) : List Diagnostic :=
  if IsLiteral reference then [.notAVariable "Output" reference] else []

lemma diagnostics_resolveTarget {reference : String} (h : Known ids reference) (node : String)
    (g : Graph) :
    (resolveTarget ids node g reference).2.diagnostics = g.diagnostics ++ literalProblem reference := by
  unfold resolveTarget resolveSource literalProblem
  cases hliteral : literal? reference with
  | some text =>
    rw [if_pos (isSome_literal?_iff.1 (by rw [hliteral]; rfl))]
    rfl
  | none =>
    have hnot := literal?_eq_none_iff.1 hliteral
    obtain ⟨id, hid⟩ := Option.isSome_iff_exists.1 (h.resolve_left hnot)
    rw [if_neg hnot, List.append_nil, hid]

/-- The references that outputs are made of. Of several ones without pins only the first counts. -/
def usedOutputs : PinsDescription → List String
  | .single reference => [reference]
  | .positional references => references.head?.toList
  | .named pins => pins.entries.map (·.2)

/-- The literals among the outputs of a node, as problems. -/
def outputProblems (n : NodeDescription) : List Diagnostic :=
  (n.outputs.toList.flatMap usedOutputs).flatMap literalProblem

lemma diagnostics_resolveInputs {inputs : PinsDescription}
    (h : ∀ reference ∈ inputs.references, Known ids reference) (node : String) (g : Graph) :
    (resolveInputs ids node g inputs).2.diagnostics = g.diagnostics := by
  have hsource : ∀ reference ∈ inputs.references, ∀ g,
      (resolveSource ids node g reference).2.diagnostics = g.diagnostics ++ [] :=
    fun reference hreference g =>
      (diagnostics_resolveSource (h reference hreference) node g).trans (List.append_nil _).symm
  have hnone : ∀ references : List String,
      references.flatMap (fun _ => ([] : List Diagnostic)) = [] := fun references =>
    List.flatMap_eq_nil_iff.2 fun _ _ => rfl
  cases inputs with
  | single reference => exact diagnostics_resolveSource (h reference List.mem_cons_self) node g
  | positional references =>
    refine (diagnostics_resolveEach (fun _ => []) hsource g).trans ?_
    rw [hnone, List.append_nil]
  | named pins =>
    refine (diagnostics_resolvePins (fun _ => [])
      (fun e he => hsource e.2 (List.mem_map_of_mem he)) g).trans ?_
    rw [hnone, List.append_nil]

lemma diagnostics_resolveOutputs {outputs : PinsDescription}
    (h : ∀ reference ∈ outputs.references, Known ids reference) (node : String) (g : Graph) :
    (resolveOutputs ids node g outputs).2.diagnostics =
      g.diagnostics ++ (usedOutputs outputs).flatMap literalProblem := by
  cases outputs with
  | single reference =>
    rw [usedOutputs, List.flatMap_singleton]
    exact diagnostics_resolveTarget (h reference List.mem_cons_self) node g
  | positional references =>
    cases references with
    | nil => exact (List.append_nil _).symm
    | cons first rest =>
      have hnoted : (g.noteIf (!rest.isEmpty) (.severalOutputs node first)).diagnostics =
          g.diagnostics := by
        unfold noteIf
        split <;> rfl
      have htarget := diagnostics_resolveTarget (h first List.mem_cons_self) node
        (g.noteIf (!rest.isEmpty) (.severalOutputs node first))
      rw [hnoted] at htarget
      rw [usedOutputs, List.head?_cons, Option.toList_some, List.flatMap_singleton]
      exact htarget
  | named pins =>
    exact diagnostics_resolvePins literalProblem
      (fun e he g => diagnostics_resolveTarget (h e.2 (List.mem_map_of_mem he)) node g) g

/-! ## Wiring -/

lemma diagnostics_modify (g : Graph) (id : NodeId) (f : Node → Node) :
    (g.modify id f).diagnostics = g.diagnostics := by
  unfold Graph.modify
  split <;> rfl

lemma diagnostics_wireOutputs (g : Graph) (id : NodeId) (outputs : Outputs) :
    (g.wireOutputs id outputs).diagnostics = g.diagnostics := by
  have hlink : ∀ (targets : List NodeId) (g : Graph),
      (targets.foldl (linkTarget id) g).diagnostics = g.diagnostics := by
    intro targets
    induction targets with
    | nil => exact fun g => rfl
    | cons target targets ih =>
      intro g
      rw [List.foldl_cons, ih, linkTarget]
      split
      · exact diagnostics_modify g target _
      · rfl
  unfold wireOutputs
  split
  next => rfl
  next =>
    split
    · rfl
    · rw [diagnostics_modify, hlink]

/-- One node is wired. -/
lemma diagnostics_wireStep {n : NodeDescription} (hn : (ids.lookup n.id).isSome)
    (h : ∀ reference ∈ n.references, Known ids reference) (g : Graph) :
    (wireStep ids g n).diagnostics = g.diagnostics ++ outputProblems n := by
  have hinputs : ∀ g, (resolveOptional (resolveInputs ids n.id) g n.inputs).2.diagnostics =
      g.diagnostics := by
    intro g
    cases hinputs : n.inputs with
    | none => rfl
    | some inputs =>
      refine diagnostics_resolveInputs (fun reference hreference => h reference ?_) n.id g
      rw [NodeDescription.references, hinputs]
      exact List.mem_flatMap.2 ⟨inputs, List.mem_cons_self, hreference⟩
  have houtputs : ∀ g, (resolveOptional (resolveOutputs ids n.id) g n.outputs).2.diagnostics =
      g.diagnostics ++ outputProblems n := by
    intro g
    rw [outputProblems]
    cases houtputs : n.outputs with
    | none => exact (List.append_nil _).symm
    | some outputs =>
      rw [Option.toList_some, List.flatMap_singleton]
      refine diagnostics_resolveOutputs (fun reference hreference => h reference ?_) n.id g
      rw [NodeDescription.references, houtputs]
      exact List.mem_flatMap.2 ⟨outputs, List.mem_append_right _ List.mem_cons_self, hreference⟩
  obtain ⟨id, hid⟩ := Option.isSome_iff_exists.1 hn
  unfold wireStep
  rw [hid]
  have hresolved := houtputs (resolveOptional (resolveInputs ids n.id) g n.inputs).2
  rw [hinputs] at hresolved
  generalize resolveOptional (resolveInputs ids n.id) g n.inputs = inputs at hresolved
  obtain ⟨inputs, g₁⟩ := inputs
  dsimp only at hresolved ⊢
  generalize resolveOptional (resolveOutputs ids n.id) g₁ n.outputs = outputs at hresolved
  obtain ⟨outputs, g₂⟩ := outputs
  dsimp only at hresolved ⊢
  have hwired : (inputs.elim g₂ (g₂.wireInputs id)).diagnostics = g₂.diagnostics := by
    cases inputs with
    | none => rfl
    | some inputs => exact diagnostics_modify g₂ id _
  generalize inputs.elim g₂ (g₂.wireInputs id) = g₃ at hwired
  have hlinked : (outputs.elim g₃ (g₃.wireOutputs id)).diagnostics = g₃.diagnostics := by
    cases outputs with
    | none => rfl
    | some outputs => exact diagnostics_wireOutputs g₃ id outputs
  generalize outputs.elim g₃ (g₃.wireOutputs id) = g₄ at hlinked
  have hcommented : (n.comment.elim g₄ (g₄.setComment id)).diagnostics = g₄.diagnostics := by
    cases n.comment with
    | none => rfl
    | some text => exact diagnostics_modify g₄ id _
  rw [hcommented, hlinked, hwired, hresolved]

/-- All nodes are wired. -/
lemma diagnostics_wireSteps {nodes : List NodeDescription}
    (hnodes : ∀ n ∈ nodes, (ids.lookup n.id).isSome)
    (h : ∀ n ∈ nodes, ∀ reference ∈ n.references, Known ids reference) (g : Graph) :
    (nodes.foldl (wireStep ids) g).diagnostics = g.diagnostics ++ nodes.flatMap outputProblems := by
  induction nodes generalizing g with
  | nil => exact (List.append_nil _).symm
  | cons n nodes ih =>
    rw [List.foldl_cons, ih (fun m hm => hnodes m (List.mem_cons_of_mem _ hm))
        (fun m hm => h m (List.mem_cons_of_mem _ hm)),
      diagnostics_wireStep (hnodes n List.mem_cons_self) (h n List.mem_cons_self), List.flatMap_cons,
      List.append_assoc]

/-- Roots that were created are found, one after another, and nothing happens to the graph. -/
lemma resolveEach_roots {roots : List String} (h : ∀ root ∈ roots, (ids.lookup root).isSome)
    (g : Graph) : resolveEach (resolveRoot ids) g roots = (roots.filterMap (fun root => ids.lookup root), g) := by
  have hfold : ∀ found : List NodeId,
      roots.foldl (fun (s : List NodeId × Graph) root =>
        (s.1 ++ (resolveRoot ids s.2 root).1.toList, (resolveRoot ids s.2 root).2)) (found, g) =
          (found ++ roots.filterMap (fun root => ids.lookup root), g) := by
    induction roots with
    | nil => exact fun found => by rw [List.filterMap_nil, List.append_nil]; rfl
    | cons root roots ih =>
      intro found
      obtain ⟨id, hid⟩ := Option.isSome_iff_exists.1 (h root List.mem_cons_self)
      have hroot : resolveRoot ids g root = (some id, g) := by rw [resolveRoot, hid]
      rw [List.foldl_cons, hroot, ih fun other hother => h other (List.mem_cons_of_mem _ hother),
        List.filterMap_cons, hid, List.append_assoc]
      rfl
  exact hfold []

/-! ## Building -/

/-- The catalogue makes every node of the description. -/
def MadeBy (d : Description) (catalogue : Catalogue) : Prop :=
  ∀ n ∈ d.nodes, ∃ kind, catalogue.create n.nodeType n.args = .ok kind

/-- What building a description in a graph answers with, if it resolves everything. -/
structure Resolved (d : Description) (catalogue : Catalogue) (g : Graph)
    (built : List NodeId × Graph) : Prop where
  /-- Every root is the node that the description has under its name. -/
  roots : List.Forall₂ (fun root id => ∃ n ∈ d.nodes, n.id = root ∧ ∃ kind,
    catalogue.create n.nodeType n.args = .ok kind ∧ built.2.StandsFor kind id) d.roots built.1
  /-- There is nothing to report but types that differ, and literals that cannot be written to. -/
  diagnostics : ∃ mismatches, (∀ problem ∈ mismatches, IsMismatch catalogue d.nodes problem) ∧
    built.2.diagnostics = g.diagnostics ++ mismatches ++ d.nodes.flatMap outputProblems

lemma lookup_isSome_of_mem {reference : String} (h : reference ∈ ids.map (·.1)) :
    (ids.lookup reference).isSome := by
  rw [List.lookup_isSome_iff]
  obtain ⟨e, he, rfl⟩ := List.mem_map.1 h
  exact ⟨e, he, beq_self_eq_true _⟩

/-- A valid description resolves in a graph that refers to nothing missing. -/
lemma resolved_build {d : Description} (hvalid : d.Valid) (hmade : d.MadeBy catalogue)
    (hg : Created ([], g)) : d.Resolved catalogue g (d.build catalogue g) := by
  have hcreating := creating_createNodes d g hmade
  have hcreated := d.created_createNodes catalogue hg
  unfold build
  generalize d.createNodes catalogue g = s at hcreating hcreated
  obtain ⟨ids, g₁⟩ := s
  have hids : ∀ reference ∈ d.ids, (ids.lookup reference).isSome := fun reference hreference => by
    refine lookup_isSome_of_mem ?_
    rw [hcreating.ids]
    exact List.mem_reverse.2 hreference
  have hwired := rewired_wireSteps hcreated.referential hcreated.ids d.nodes
  have hproblems := diagnostics_wireSteps (fun n hn => hids n.id (List.mem_map_of_mem hn))
    (fun n hn reference hreference =>
      (hvalid.references n hn reference hreference).imp_right (hids reference)) g₁
  dsimp only
  rw [resolveEach_roots fun root hroot => hids root (hvalid.roots root hroot)]
  obtain ⟨mismatches, hmismatches, hold⟩ := hcreating.diagnostics
  refine ⟨?_, mismatches, hmismatches, ?_⟩
  · have hall : ∀ roots : List String, (∀ root ∈ roots, root ∈ d.ids) →
        List.Forall₂ (fun root id => ∃ n ∈ d.nodes, n.id = root ∧ ∃ kind,
          catalogue.create n.nodeType n.args = .ok kind ∧
            (d.nodes.foldl (wireStep ids) g₁).StandsFor kind id)
          roots (roots.filterMap fun root => ids.lookup root) := by
      intro roots
      induction roots with
      | nil => exact fun _ => .nil
      | cons root roots ih =>
        intro hroots
        obtain ⟨id, hid⟩ := Option.isSome_iff_exists.1 (hids root (hroots root List.mem_cons_self))
        obtain ⟨front, back, hentries, -⟩ := List.lookup_eq_some_iff.1 hid
        have hmem : (root, id) ∈ ids := hentries ▸ List.mem_append_right _ List.mem_cons_self
        obtain ⟨n, hn, hname, kind, hkind, hstands⟩ := hcreating.made (root, id) hmem
        rw [List.filterMap_cons, hid]
        exact .cons ⟨n, hn, hname, kind, hkind, hstands.retains hwired.rewires.retains⟩
          (ih fun other hother => hroots other (List.mem_cons_of_mem _ hother))
    exact hall d.roots hvalid.roots
  · rw [hproblems, hold]

/-- **Validating and building agree.** A description is validated exactly if it has roots, distinct
identifiers and no undeclared references and roots. If moreover a catalogue makes its nodes, then
building it in an empty graph resolves all roots in order, and reports nothing but mismatches of types
and, for each literal that is used as an output, that it is no variable. -/
theorem validate_agrees_build (d : Description) :
    (d.validate = .ok () ↔ d.Valid) ∧
      ∀ (catalogue : Catalogue) (stage : Stage) (customFragment : Bool),
        d.validate = .ok () → d.MadeBy catalogue →
          d.Resolved catalogue { ofStage stage with customFragment }
            (d.build catalogue { ofStage stage with customFragment }) := by
  refine ⟨validate_eq_ok_iff d, fun catalogue stage customFragment hvalid hmade => ?_⟩
  have hstage := referential_ofStage stage
  have hempty : Created ([], { ofStage stage with customFragment }) :=
    ⟨⟨hstage.inputs, hstage.outputs, hstage.registry, hstage.varyings⟩, rfl, List.forall_mem_nil _⟩
  exact resolved_build ((validate_eq_ok_iff d).1 hvalid) hmade hempty

/-- Two nodes ask for one uniform with two types. A sum of it, of a number and of a node that has the
mark in its name is written to a literal, and a product has an output too many. -/
def sharedUniform : Description where
  nodes := [
    { id := "factor", nodeType := "Uniform", args := [.text "float", .text "uFactor"] },
    { id := "again", nodeType := "Uniform", args := [.text "vec4", .text "uFactor"] },
    { id := "=sum", nodeType := "Add", inputs := some (.positional ["factor", "=1.0", "=sum"]),
      outputs := some (.single "=color") },
    { id := "product", nodeType := "Mult",
      inputs := some (.named ⟨[("a", "factor"), ("b", "again")], by decide⟩),
      outputs := some (.positional ["color", "product"]), comment := some "scaled" },
    { id := "color", nodeType := "glFragColor" }]
  roots := ["color", "again", "color"]

theorem validate_agrees_build_sharedUniform :
    sharedUniform.validate = .ok () ∧ sharedUniform.MadeBy .builtin ∧
      sharedUniform.Resolved .builtin { ofStage .fragment with customFragment := false }
        (sharedUniform.build .builtin { ofStage .fragment with customFragment := false }) := by
  have hvalid : sharedUniform.validate = .ok () := by decide +kernel
  have hcreate : ∀ n ∈ sharedUniform.nodes,
      (Catalogue.builtin.create n.nodeType n.args).isOk = true := by decide +kernel
  have hmade : sharedUniform.MadeBy .builtin := by
    intro n hn
    have hn := hcreate n hn
    cases hresult : Catalogue.builtin.create n.nodeType n.args with
    | error problem =>
      rw [hresult] at hn
      cases hn
    | ok kind => exact ⟨kind, rfl⟩
  exact ⟨hvalid, hmade, (validate_agrees_build sharedUniform).2 .builtin .fragment false hvalid hmade⟩

end Description

end SceneShading
