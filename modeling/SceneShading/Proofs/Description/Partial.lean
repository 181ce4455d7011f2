import Mathlib.Tactic
import SceneShading.Proofs.Description.Agreement

/-!
# Descriptions that are built in part

A node that the catalogue cannot make and a reference to a node that is not there are reported and
left out. That they were written at all leaves no trace in the graph: it is the graph of the
description from which they are deleted, and only the problems of the two graphs differ
(`Description.build_pruned`).

Both descriptions are built side by side. The graphs are `Graph.Apart` by the problems that only the
first one has. What both descriptions say is done to both graphs and keeps them apart by the same
problems (`Graph.Apart.createNode`, `Graph.Apart.modify`, `Graph.Apart.wireOutputs`); what only the
first one says adds its problem to these and does nothing else. Lists of nodes and of references are
therefore followed by one induction each, with these two cases (`Description.agrees_createSteps`,
`Description.Agrees.resolveEach`).
-/

namespace SceneShading

variable {α β : Type}

/-! ## Graphs apart -/

namespace Graph

/-- The graphs are the same, but for problems: the first one has further ones. Journals are not
compared. -/
structure Apart (extra : List Diagnostic) (g g' : Graph) : Prop where
  stage : g.stage = g'.stage
  nodes : g.nodes = g'.nodes
  registry : g.registry = g'.registry
  varyings : g.varyings = g'.varyings
  customFragment : g.customFragment = g'.customFragment
  fault : g.fault = g'.fault
  diagnostics : g.diagnostics.Perm (g'.diagnostics ++ extra)

variable {extra : List Diagnostic} {g g' : Graph}

namespace Apart

lemma refl (g : Graph) : Apart [] g g :=
  ⟨rfl, rfl, rfl, rfl, rfl, rfl, by rw [List.append_nil]⟩

lemma node? (h : Apart extra g g') (id : NodeId) : g.node? id = g'.node? id := by
  rw [Graph.node?, h.nodes, Graph.node?]

lemma size (h : Apart extra g g') : g.size = g'.size := by
  rw [Graph.size, h.nodes, Graph.size]

/-- The graphs stay apart when both are noted upon. -/
lemma noteIf (h : Apart extra g g') (condition : Bool) (n : Notice) :
    Apart extra (g.noteIf condition n) (g'.noteIf condition n) := by
  unfold Graph.noteIf
  split
  · exact { h with }
  · exact h

/-- A problem that both graphs have. -/
lemma report (h : Apart extra g g') (problem : Diagnostic) :
    Apart extra (g.report problem) (g'.report problem) := by
  have hmoved : (g'.diagnostics ++ extra ++ [problem]).Perm (g'.diagnostics ++ [problem] ++ extra) := by
    rw [List.append_assoc, List.append_assoc]
    exact List.perm_append_comm.append_left _
  exact { h with diagnostics := (h.diagnostics.append_right [problem]).trans hmoved }

/-- A problem that only the first graph has. -/
lemma report_left (h : Apart extra g g') (problem : Diagnostic) :
    Apart (extra ++ [problem]) (g.report problem) g' := by
  refine { h with diagnostics := ?_ }
  rw [← List.append_assoc]
  exact h.diagnostics.append_right [problem]

lemma fail (h : Apart extra g g') (f : Fault) : Apart extra (g.fail f) (g'.fail f) := by
  refine { h with fault := ?_ }
  rw [Graph.fail, Graph.fail, h.fault]

lemma modify (h : Apart extra g g') (id : NodeId) (f : Node → Node) :
    Apart extra (g.modify id f) (g'.modify id f) := by
  unfold Graph.modify
  rw [h.size]
  split
  · exact { h with nodes := congrArg (·.modify id f) h.nodes }
  · exact h.fail _

lemma wireInputs (h : Apart extra g g') (id : NodeId) (inputs : InputSet) :
    Apart extra (g.wireInputs id inputs) (g'.wireInputs id inputs) :=
  h.modify id _

lemma linkTargets (h : Apart extra g g') (id : NodeId) (targets : List NodeId) :
    Apart extra (targets.foldl (linkTarget id) g) (targets.foldl (linkTarget id) g') := by
  induction targets generalizing g g' with
  | nil => exact h
  | cons target targets ih =>
    refine ih ?_
    unfold linkTarget
    rw [h.size]
    split
    · exact h.wireInputs target _
    · exact { h with }

lemma wireOutputs (h : Apart extra g g') (id : NodeId) (outputs : Outputs) :
    Apart extra (g.wireOutputs id outputs) (g'.wireOutputs id outputs) := by
  unfold Graph.wireOutputs
  rw [h.node?]
  cases g'.node? id with
  | none => exact h.fail _
  | some n =>
    dsimp only
    split
    · exact h
    · exact (h.linkTargets id outputs.targets).modify id _

/-- A node is wired with what it has. -/
lemma wire (h : Apart extra g g') (id : NodeId) (inputs : Option InputSet)
    (outputs : Option Outputs) (comment : Option String) :
    let supplied := inputs.elim g (g.wireInputs id)
    let supplied' := inputs.elim g' (g'.wireInputs id)
    let linked := outputs.elim supplied (supplied.wireOutputs id)
    let linked' := outputs.elim supplied' (supplied'.wireOutputs id)
    Apart extra (comment.elim linked (linked.setComment id))
      (comment.elim linked' (linked'.setComment id)) := by
  intro supplied supplied' linked linked'
  have hsupplied : Apart extra supplied supplied' := by
    cases inputs with
    | none => exact h
    | some inputs => exact h.wireInputs id inputs
  have hlinked : Apart extra linked linked' := by
    cases outputs with
    | none => exact hsupplied
    | some outputs => exact hsupplied.wireOutputs id outputs
  cases comment with
  | none => exact hlinked
  | some text => exact hlinked.modify id _

lemma insert (h : Apart extra g g') (kind : NodeKind) :
    Apart extra (g.insert kind).2 (g'.insert kind).2 := by
  refine { h with nodes := ?_ }
  change g.nodes.push { id := g.size, kind } = g'.nodes.push { id := g'.size, kind }
  rw [h.size, h.nodes]

lemma insertVariable (h : Apart extra g g') (v : Variable) :
    Apart extra (g.insertVariable v).2 (g'.insertVariable v).2 := by
  refine { h.insert (.var v) with registry := ?_ }
  change g.registry.register v.name g.size = g'.registry.register v.name g'.size
  rw [h.size, h.registry]

lemma checkType (h : Apart extra g g') (existing : NodeId) (name type : String) :
    Apart extra (g.checkType existing name type).2 (g'.checkType existing name type).2 := by
  unfold Graph.checkType declared?
  rw [h.node?]
  cases (g'.node? existing).bind (·.kind.declared?) with
  | none => exact h
  | some v =>
    dsimp only
    split
    · exact h
    · exact h.report _

/-- The same node is created in both graphs, or the same problem found. -/
lemma createNode (h : Apart extra g g') (catalogue : Catalogue) (nodeType : String)
    (args : List NodeArg) :
    (g.createNode catalogue nodeType args).1 = (g'.createNode catalogue nodeType args).1 ∧
      Apart extra (g.createNode catalogue nodeType args).2
        (g'.createNode catalogue nodeType args).2 := by
  have hnoted := h.noteIf (!catalogue.contains nodeType) (.unknownNodeType nodeType)
  unfold Graph.createNode
  generalize g.noteIf (!catalogue.contains nodeType) (.unknownNodeType nodeType) = noted at hnoted
  generalize g'.noteIf (!catalogue.contains nodeType) (.unknownNodeType nodeType) = noted' at hnoted
  cases catalogue.create nodeType args with
  | error problem => exact ⟨rfl, hnoted⟩
  | ok kind =>
    cases kind with
    | var v =>
      have hfind : noted.find? v.name = noted'.find? v.name := by
        rw [Graph.find?, hnoted.registry, Graph.find?]
      cases hexisting : noted'.find? v.name with
      | some existing =>
        simp only [hfind, hexisting]
        exact ⟨trivial, hnoted.checkType existing v.name v.type⟩
      | none =>
        simp only [hfind, hexisting]
        have hinserted := hnoted.insertVariable v
        refine ⟨congrArg Except.ok hnoted.size, ?_⟩
        split
        · refine { hinserted with varyings := ?_ }
          change noted.varyings ++ [(v.name, noted.size)] = noted'.varyings ++ [(v.name, noted'.size)]
          rw [hnoted.varyings, hnoted.size]
        · exact hinserted
    | _ => exact ⟨congrArg Except.ok hnoted.size, hnoted.insert _⟩

end Apart

end Graph

/-! ## Deleted nodes and references -/

namespace PinsDescription

/-- The references that are kept. A single reference that is not kept leaves no pins behind. -/
def restrict (keep : String → Bool) : PinsDescription → Option PinsDescription
  | single reference => if keep reference then some (single reference) else none
  | positional references => some (positional (references.filter keep))
  | named pins => some (named ⟨pins.entries.filter (keep ·.2), pins.ascending.filter _⟩)

lemma references_restrict (keep : String → Bool) (pins : PinsDescription) :
    (pins.restrict keep).toList.flatMap references = pins.references.filter keep := by
  cases pins with
  | single reference =>
    by_cases hkeep : keep reference = true <;> simp [restrict, references, hkeep]
  | positional kept => simp [restrict, references]
  | named pins => simp [restrict, references, List.filter_map, Function.comp_def]

end PinsDescription

namespace NodeDescription

/-- The node with the references that are kept. -/
def restrict (keep : String → Bool) (n : NodeDescription) : NodeDescription :=
  { n with
    inputs := n.inputs.bind (·.restrict keep)
    outputs := n.outputs.bind (·.restrict keep) }

lemma references_restrict (keep : String → Bool) (n : NodeDescription) :
    (n.restrict keep).references = n.references.filter keep := by
  have hpins : ∀ pins : Option PinsDescription,
      (pins.bind (·.restrict keep)).toList.flatMap PinsDescription.references =
        (pins.toList.flatMap PinsDescription.references).filter keep := by
    intro pins
    cases pins with
    | none => rfl
    | some pins => simpa using pins.references_restrict keep
  rw [references, restrict, List.flatMap_append, hpins, hpins, ← List.filter_append,
    ← List.flatMap_append, references]

end NodeDescription

namespace Description

open SceneShading.Graph

variable {catalogue : Catalogue} {extra : List Diagnostic} {g g' : Graph} {ids : BuiltIds}
  {keep : String → Bool}

/-- Why the catalogue does not make a node. -/
def failure? (catalogue : Catalogue) (n : NodeDescription) : Option Diagnostic :=
  match catalogue.create n.nodeType n.args with
  | .error problem => some problem
  | .ok _ => none

/-- The catalogue makes the node. -/
def isMade (catalogue : Catalogue) (n : NodeDescription) : Bool := (failure? catalogue n).isNone

/-- The identifier is not declared, or it is that of a node that the catalogue does not make. -/
def isMissing (d : Description) (catalogue : Catalogue) (id : String) : Bool :=
  !d.ids.contains id || d.nodes.any fun n => n.id == id && !isMade catalogue n

/-- The reference is a literal or leads to a node that is there. -/
def leads (d : Description) (catalogue : Catalogue) (reference : String) : Bool :=
  (literal? reference).isSome || !d.isMissing catalogue reference

/-- The nodes that the catalogue makes. -/
def madeNodes (d : Description) (catalogue : Catalogue) : List NodeDescription :=
  d.nodes.filter (isMade catalogue)

/-- The description without the nodes that the catalogue does not make, and without the references
and roots that lead nowhere. -/
def pruned (d : Description) (catalogue : Catalogue) : Description where
  nodes := (d.madeNodes catalogue).map (·.restrict (d.leads catalogue))
  roots := d.roots.filter fun root => !d.isMissing catalogue root

/-- The problems of the nodes that the catalogue does not make. -/
def failures (d : Description) (catalogue : Catalogue) : List Diagnostic :=
  d.nodes.filterMap (failure? catalogue)

/-- The references that lead nowhere, with the nodes that the catalogue makes and that have them. -/
def lostReferences (d : Description) (catalogue : Catalogue) : List (String × String) :=
  (d.madeNodes catalogue).flatMap fun n =>
    (n.references.filter (!d.leads catalogue ·)).map (n.id, ·)

/-- The roots that lead nowhere. -/
def lostRoots (d : Description) (catalogue : Catalogue) : List (String × String) :=
  (d.roots.filter (d.isMissing catalogue)).map ("roots", ·)

/-- A reference to a node that is not there, as a problem. -/
def unknown (r : String × String) : Diagnostic := .unknownReference r.1 r.2

/-- If identifiers are distinct, those that are not missing are those of the nodes that are left. -/
lemma isMissing_eq_false_iff {d : Description} (hids : d.ids.Nodup) {id : String} :
    d.isMissing catalogue id = false ↔ id ∈ (d.pruned catalogue).ids := by
  have hpruned : (d.pruned catalogue).ids = (d.madeNodes catalogue).map (·.id) := by
    rw [ids, pruned, List.map_map]
    rfl
  rw [hpruned, isMissing, Bool.or_eq_false_iff, Bool.not_eq_false', List.contains_iff_mem,
    List.any_eq_false]
  constructor
  · rintro ⟨hdeclared, hmade⟩
    obtain ⟨n, hn, rfl⟩ := List.mem_map.1 hdeclared
    refine List.mem_map_of_mem (List.mem_filter.2 ⟨hn, ?_⟩)
    simpa using hmade n hn
  · intro h
    obtain ⟨n, hn, rfl⟩ := List.mem_map.1 h
    obtain ⟨hmem, hmade⟩ := List.mem_filter.1 hn
    refine ⟨List.mem_map_of_mem hmem, fun m hm heq => ?_⟩
    rw [Bool.and_eq_true, beq_iff_eq] at heq
    have hsame : m = n := List.inj_on_of_nodup_map hids hm hmem heq.1
    rw [hsame, hmade] at heq
    cases heq.2

/-! ## Both runs -/

/-- Two runs answer the same, and their graphs are apart. -/
def Agrees (extra : List Diagnostic) (s s' : β × Graph) : Prop := s.1 = s'.1 ∧ Apart extra s.2 s'.2

/-- The nodes that the catalogue makes are created in both runs, and the others only reported. -/
lemma agrees_createSteps (catalogue : Catalogue) (built : BuiltIds) (nodes : List NodeDescription)
    (h : Apart extra g g') :
    Agrees (extra ++ nodes.filterMap (failure? catalogue))
      (nodes.foldl (createStep catalogue) (built, g))
      ((nodes.filter (isMade catalogue)).foldl (createStep catalogue) (built, g')) := by
  induction nodes generalizing extra built g g' with
  | nil => exact ⟨rfl, by simpa using h⟩
  | cons n nodes ih =>
    obtain ⟨hid, hgraph⟩ := h.createNode catalogue n.nodeType n.args
    cases hcreate : catalogue.create n.nodeType n.args with
    | ok kind =>
      have hmade : failure? catalogue n = none := by rw [failure?, hcreate]
      obtain ⟨id, g₁, hfirst, -⟩ := createNode_of_create hcreate g
      rw [hfirst] at hid hgraph
      have hstep : createStep catalogue (built, g) n = ((n.id, id) :: built, g₁) := by
        rw [createStep, hfirst]
      have hstep' : createStep catalogue (built, g') n =
          ((n.id, id) :: built, (g'.createNode catalogue n.nodeType n.args).2) := by
        rw [createStep]
        generalize g'.createNode catalogue n.nodeType n.args = created at hid
        obtain ⟨_, g₁'⟩ := created
        cases hid
        rfl
      rw [List.filterMap_cons_none hmade, List.filter_cons_of_pos (by rw [isMade, hmade]; rfl),
        List.foldl_cons, List.foldl_cons, hstep, hstep']
      exact ih _ hgraph
    | error problem =>
      have hfailed : failure? catalogue n = some problem := by rw [failure?, hcreate]
      have hstep : createStep catalogue (built, g) n =
          (built, (g.noteIf (!catalogue.contains n.nodeType) (.unknownNodeType n.nodeType)).report
            problem) := by
        rw [createStep, Graph.createNode, hcreate]
      have hnoted : Apart extra
          (g.noteIf (!catalogue.contains n.nodeType) (.unknownNodeType n.nodeType)) g' := by
        unfold Graph.noteIf
        split
        · exact { h with }
        · exact h
      rw [List.filterMap_cons_some hfailed, List.filter_cons_of_neg (by simp [isMade, hfailed]),
        List.foldl_cons, hstep, List.append_cons]
      exact ih _ (hnoted.report_left problem)

/-- References that are kept are resolved in both runs, and the others only reported. -/
lemma Agrees.resolveEach {resolve : Graph → α → Option β × Graph} {keep : α → Bool}
    {problem : α → Diagnostic}
    (hboth : ∀ x extra g g', Apart extra g g' → Agrees extra (resolve g x) (resolve g' x))
    (hlost : ∀ x, keep x = false → ∀ g, resolve g x = (none, g.report (problem x)))
    (h : Apart extra g g') (xs : List α) :
    Agrees (extra ++ (xs.filter (!keep ·)).map problem) (resolveEach resolve g xs)
      (Description.resolveEach resolve g' (xs.filter keep)) := by
  have hfold : ∀ found : List β, Agrees (extra ++ (xs.filter (!keep ·)).map problem)
      (xs.foldl (fun (s : List β × Graph) x =>
        (s.1 ++ (resolve s.2 x).1.toList, (resolve s.2 x).2)) (found, g))
      ((xs.filter keep).foldl (fun (s : List β × Graph) x =>
        (s.1 ++ (resolve s.2 x).1.toList, (resolve s.2 x).2)) (found, g')) := by
    induction xs generalizing extra g g' with
    | nil => exact fun found => ⟨rfl, by simpa using h⟩
    | cons x xs ih =>
      intro found
      cases hkeep : keep x with
      | true =>
        have hkept : (x :: xs).filter keep = x :: xs.filter keep := List.filter_cons_of_pos hkeep
        have hdropped : (x :: xs).filter (!keep ·) = xs.filter (!keep ·) :=
          List.filter_cons_of_neg (by simp [hkeep])
        obtain ⟨hanswer, hgraph⟩ := hboth x extra g g' h
        rw [hkept, hdropped, List.foldl_cons, List.foldl_cons, hanswer]
        exact ih hgraph _
      | false =>
        have hkept : (x :: xs).filter keep = xs.filter keep :=
          List.filter_cons_of_neg (by simp [hkeep])
        have hdropped : (x :: xs).filter (!keep ·) = x :: xs.filter (!keep ·) :=
          List.filter_cons_of_pos (by simp [hkeep])
        rw [hkept, hdropped, List.foldl_cons, hlost x hkeep, List.map_cons, List.append_cons,
          Option.toList_none, List.append_nil]
        exact ih (h.report_left _) found
  exact hfold []

lemma agrees_resolveSource (h : Apart extra g g') (node reference : String) :
    Agrees extra (resolveSource ids node g reference) (resolveSource ids node g' reference) := by
  unfold resolveSource
  cases literal? reference with
  | some text => exact ⟨rfl, h⟩
  | none =>
    cases ids.lookup reference with
    | some id => exact ⟨rfl, h⟩
    | none => exact ⟨rfl, h.report _⟩

lemma agrees_resolveTarget (h : Apart extra g g') (node reference : String) :
    Agrees extra (resolveTarget ids node g reference) (resolveTarget ids node g' reference) := by
  obtain ⟨hsource, hgraph⟩ : Agrees extra (resolveSource ids node g reference)
      (resolveSource ids node g' reference) := agrees_resolveSource h node reference
  unfold resolveTarget
  generalize resolveSource ids node g reference = s at hsource hgraph
  generalize resolveSource ids node g' reference = s' at hsource hgraph
  obtain ⟨source, g₁⟩ := s
  obtain ⟨source', g₁'⟩ := s'
  cases hsource
  cases source with
  | none => exact ⟨rfl, hgraph⟩
  | some source =>
    cases source with
    | node id => exact ⟨rfl, hgraph⟩
    | literal text => exact ⟨rfl, hgraph.report _⟩

section Wiring

variable (hkeep : ∀ reference, keep reference =
  ((literal? reference).isSome || (ids.lookup reference).isSome))

include hkeep

lemma resolveSource_of_lost {reference : String} (hlost : keep reference = false) (node : String)
    (g : Graph) :
    resolveSource ids node g reference = (none, g.report (.unknownReference node reference)) := by
  rw [hkeep, Bool.or_eq_false_iff] at hlost
  rw [resolveSource, Option.isSome_eq_false_iff.1 hlost.1 |> Option.isNone_iff_eq_none.1,
    Option.isSome_eq_false_iff.1 hlost.2 |> Option.isNone_iff_eq_none.1]

lemma resolveTarget_of_lost {reference : String} (hlost : keep reference = false) (node : String)
    (g : Graph) :
    resolveTarget ids node g reference = (none, g.report (.unknownReference node reference)) := by
  rw [resolveTarget, resolveSource_of_lost hkeep hlost]

omit hkeep in
/-- References with pins, of which those are kept that lead somewhere. -/
lemma Agrees.resolvePins {resolve : Graph → String → Option β × Graph} {node : String}
    (hboth : ∀ x extra g g', Apart extra g g' → Agrees extra (resolve g x) (resolve g' x))
    (hlost : ∀ x, keep x = false → ∀ g, resolve g x = (none, g.report (.unknownReference node x)))
    (h : Apart extra g g') (pins : PinMap) :
    Agrees (extra ++ ((pins.entries.map (·.2)).filter (!keep ·)).map (.unknownReference node))
      (resolvePins resolve g pins)
      (Description.resolvePins resolve g'
        ⟨pins.entries.filter (keep ·.2), pins.ascending.filter _⟩) := by
  have hlostPin : ∀ e : String × String, keep e.2 = false → ∀ g : Graph,
      ((resolve g e.2).1.map (e.1, ·), (resolve g e.2).2) =
        (none, g.report (.unknownReference node e.2)) := by
    intro e he g
    rw [hlost e.2 he]
    rfl
  rw [List.filter_map, List.map_map]
  refine Agrees.resolveEach (fun e extra g g' h => ?_) hlostPin h pins.entries
  obtain ⟨hanswer, hgraph⟩ := hboth e.2 extra g g' h
  exact ⟨congrArg (Option.map _) hanswer, hgraph⟩

omit hkeep in
/-- One reference without a pin, which is kept if it leads somewhere. -/
lemma Agrees.resolveSingle {resolve : Graph → String → Option β × Graph} {node : String}
    (hboth : ∀ x extra g g', Apart extra g g' → Agrees extra (resolve g x) (resolve g' x))
    (hlost : ∀ x, keep x = false → ∀ g, resolve g x = (none, g.report (.unknownReference node x)))
    (h : Apart extra g g') (wrap : β → α) (reference : String) :
    Agrees (extra ++ ([reference].filter (!keep ·)).map (.unknownReference node))
      ((resolve g reference).1.map wrap, (resolve g reference).2)
      (if keep reference then ((resolve g' reference).1.map wrap, (resolve g' reference).2)
        else (none, g')) := by
  cases hkept : keep reference with
  | true =>
    obtain ⟨hanswer, hgraph⟩ := hboth reference extra g g' h
    simp only [if_true, List.filter_cons, hkept, List.filter_nil, Bool.not_true,
      Bool.false_eq_true, if_false, List.map_nil, List.append_nil]
    exact ⟨congrArg (Option.map _) hanswer, hgraph⟩
  | false =>
    simp only [hlost reference hkept, List.filter_cons, hkept, List.filter_nil, Bool.not_false,
      if_true, Bool.false_eq_true, if_false, List.map_cons, List.map_nil]
    exact ⟨rfl, h.report_left _⟩

/-- Inputs are resolved in both runs, but for the references that lead nowhere. -/
lemma agrees_resolveInputs (h : Apart extra g g') (node : String) (inputs : PinsDescription) :
    Agrees (extra ++ (inputs.references.filter (!keep ·)).map (.unknownReference node))
      (resolveInputs ids node g inputs)
      (resolveOptional (resolveInputs ids node) g' (inputs.restrict keep)) := by
  have hboth : ∀ x extra g g', Apart extra g g' →
      Agrees extra (resolveSource ids node g x) (resolveSource ids node g' x) :=
    fun x extra g g' h => agrees_resolveSource h node x
  have hlost : ∀ x, keep x = false → ∀ g,
      resolveSource ids node g x = (none, g.report (.unknownReference node x)) :=
    fun x hx g => resolveSource_of_lost hkeep hx node g
  cases inputs with
  | single reference =>
    have hreference := Agrees.resolveSingle hboth hlost h (fun s => InputSet.positional [s]) reference
    rw [PinsDescription.restrict]
    split at hreference
    next hkept => rw [if_pos hkept]; exact hreference
    next hlost => rw [if_neg hlost]; exact hreference
  | positional references =>
    obtain ⟨hsources, hgraph⟩ := Agrees.resolveEach hboth hlost h references
    exact ⟨congrArg (fun sources => some (InputSet.positional sources)) hsources, hgraph⟩
  | named pins =>
    obtain ⟨hsources, hgraph⟩ := Agrees.resolvePins hboth hlost h pins
    exact ⟨congrArg (fun sources => some (InputSet.named sources)) hsources, hgraph⟩

/-- Outputs are resolved in both runs, too, if there is no second one without a pin: it would come to
be the first one when that is deleted. -/
lemma agrees_resolveOutputs (h : Apart extra g g') (node : String) {outputs : PinsDescription}
    (hfew : ∀ references, outputs = .positional references → references.length ≤ 1) :
    Agrees (extra ++ (outputs.references.filter (!keep ·)).map (.unknownReference node))
      (resolveOutputs ids node g outputs)
      (resolveOptional (resolveOutputs ids node) g' (outputs.restrict keep)) := by
  have hboth : ∀ x extra g g', Apart extra g g' →
      Agrees extra (resolveTarget ids node g x) (resolveTarget ids node g' x) :=
    fun x extra g g' h => agrees_resolveTarget h node x
  have hlost : ∀ x, keep x = false → ∀ g,
      resolveTarget ids node g x = (none, g.report (.unknownReference node x)) :=
    fun x hx g => resolveTarget_of_lost hkeep hx node g
  have hsingle := Agrees.resolveSingle hboth hlost h Outputs.single
  cases outputs with
  | single reference =>
    have hreference := hsingle reference
    rw [PinsDescription.restrict]
    split at hreference
    next hkept => rw [if_pos hkept]; exact hreference
    next hlost => rw [if_neg hlost]; exact hreference
  | positional references =>
    cases references with
    | nil =>
      refine ⟨rfl, ?_⟩
      rw [PinsDescription.references, List.filter_nil, List.map_nil, List.append_nil]
      exact h
    | cons reference rest =>
      have hrest : rest = [] := by simpa using hfew _ rfl
      subst hrest
      have hreference := hsingle reference
      rw [PinsDescription.restrict]
      split at hreference
      next hkept => rw [List.filter_cons_of_pos hkept]; exact hreference
      next hlost => rw [List.filter_cons_of_neg hlost]; exact hreference
  | named pins =>
    obtain ⟨htargets, hgraph⟩ := Agrees.resolvePins hboth hlost h pins
    exact ⟨congrArg (fun targets => some (Outputs.named targets)) htargets, hgraph⟩

omit hkeep in
/-- Pins that a node may have. -/
lemma agrees_resolveOptional {resolve : Graph → PinsDescription → Option β × Graph} (node : String)
    (pins : Option PinsDescription)
    (hsome : ∀ described, pins = some described →
      Agrees (extra ++ (described.references.filter (!keep ·)).map (.unknownReference node))
        (resolve g described) (resolveOptional resolve g' (described.restrict keep)))
    (h : Apart extra g g') :
    Agrees (extra ++ ((pins.toList.flatMap (·.references)).filter (!keep ·)).map
        (.unknownReference node))
      (resolveOptional resolve g pins)
      (resolveOptional resolve g' (pins.bind (·.restrict keep))) := by
  cases pins with
  | none =>
    refine ⟨rfl, ?_⟩
    rw [Option.toList_none, List.flatMap_nil, List.filter_nil, List.map_nil, List.append_nil]
    exact h
  | some described =>
    rw [Option.toList_some, List.flatMap_singleton]
    exact hsome described rfl

/-- A node is wired in both runs. -/
lemma Apart.wireStep {n : NodeDescription} (hn : (ids.lookup n.id).isSome)
    (hfew : ∀ references, n.outputs = some (.positional references) → references.length ≤ 1)
    (h : Apart extra g g') :
    Apart (extra ++ (n.references.filter (!keep ·)).map (.unknownReference n.id))
      (wireStep ids g n) (wireStep ids g' (n.restrict keep)) := by
  obtain ⟨id, hid⟩ := Option.isSome_iff_exists.1 hn
  obtain ⟨hinputs, hsupplied⟩ := agrees_resolveOptional n.id n.inputs
    (fun inputs _ => agrees_resolveInputs hkeep h n.id inputs) h
  obtain ⟨houtputs, hlinked⟩ := agrees_resolveOptional n.id n.outputs
    (fun outputs heq => agrees_resolveOutputs hkeep hsupplied n.id fun references hpositional =>
      hfew references (by rw [heq, hpositional])) hsupplied
  have hreferences : n.references =
      n.inputs.toList.flatMap (·.references) ++ n.outputs.toList.flatMap (·.references) := by
    rw [NodeDescription.references, List.flatMap_append]
  rw [hreferences, List.filter_append, List.map_append, ← List.append_assoc]
  unfold Description.wireStep
  simp only [NodeDescription.restrict, hid, ← hinputs, ← houtputs]
  exact hlinked.wire id _ _ n.comment

/-- All nodes that were made are wired in both runs, and the others in neither of them. -/
lemma Apart.wireSteps {nodes : List NodeDescription}
    (hmade : ∀ n ∈ nodes, (ids.lookup n.id).isSome = isMade catalogue n)
    (hfew : ∀ n ∈ nodes, ∀ references, n.outputs = some (.positional references) →
      references.length ≤ 1)
    (h : Apart extra g g') :
    Apart (extra ++ ((nodes.filter (isMade catalogue)).flatMap fun n =>
        (n.references.filter (!keep ·)).map (n.id, ·)).map unknown)
      (nodes.foldl (Description.wireStep ids) g)
      (((nodes.filter (isMade catalogue)).map (·.restrict keep)).foldl
        (Description.wireStep ids) g') := by
  induction nodes generalizing extra g g' with
  | nil => simpa using h
  | cons n nodes ih =>
    obtain ⟨hfirst, hrest⟩ := List.forall_mem_cons.1 hmade
    obtain ⟨hfewFirst, hfewRest⟩ := List.forall_mem_cons.1 hfew
    cases hn : isMade catalogue n with
    | true =>
      have hstep := Apart.wireStep hkeep (hfirst.trans hn) hfewFirst h
      rw [List.filter_cons_of_pos hn, List.flatMap_cons, List.map_append, ← List.append_assoc,
        List.map_map]
      exact ih hrest hfewRest hstep
    | false =>
      have hnone : ids.lookup n.id = none := by
        simpa [hn] using hfirst
      have hstep : Description.wireStep ids g n = g := by rw [Description.wireStep, hnone]
      rw [List.filter_cons_of_neg (by simp [hn]), List.foldl_cons, hstep]
      exact ih hrest hfewRest h

end Wiring

/-! ## Building in part -/

/-- The catalogue makes all nodes that are left. -/
lemma madeBy_pruned (d : Description) (catalogue : Catalogue) :
    (d.pruned catalogue).MadeBy catalogue := by
  intro n hn
  obtain ⟨m, hm, rfl⟩ := List.mem_map.1 hn
  have hmade := (List.mem_filter.1 hm).2
  change ∃ kind, catalogue.create m.nodeType m.args = .ok kind
  cases hcreate : catalogue.create m.nodeType m.args with
  | ok kind => exact ⟨kind, rfl⟩
  | error problem => simp [isMade, failure?, hcreate] at hmade

/-- What is created for the pruned description has the identifiers that are not missing. -/
lemma lookup_isSome_pruned {d : Description} (hids : d.ids.Nodup) (catalogue : Catalogue) (g : Graph)
    (id : String) :
    (((d.pruned catalogue).createNodes catalogue g).1.lookup id).isSome =
      !d.isMissing catalogue id := by
  have hcreated := (creating_createNodes _ g (d.madeBy_pruned catalogue)).ids
  generalize ((d.pruned catalogue).createNodes catalogue g).1 = built at hcreated
  rw [Bool.eq_iff_iff, Bool.not_eq_true', isMissing_eq_false_iff hids]
  constructor
  · intro h
    obtain ⟨e, he, heq⟩ := List.lookup_isSome_iff.1 h
    have hmem : e.1 ∈ built.map (·.1) := List.mem_map_of_mem he
    rw [hcreated, List.mem_reverse, ← beq_iff_eq.1 heq] at hmem
    exact hmem
  · intro h
    refine lookup_isSome_of_mem ?_
    rw [hcreated]
    exact List.mem_reverse.2 h

/-- A node is missing or made. -/
lemma isMissing_of_mem {d : Description} (hids : d.ids.Nodup) {n : NodeDescription}
    (hn : n ∈ d.nodes) : (!d.isMissing catalogue n.id) = isMade catalogue n := by
  rw [Bool.eq_iff_iff, Bool.not_eq_true', isMissing_eq_false_iff hids, ids, pruned, List.map_map]
  constructor
  · intro h
    obtain ⟨m, hm, heq⟩ := List.mem_map.1 h
    obtain ⟨hmem, hmade⟩ := List.mem_filter.1 hm
    exact List.inj_on_of_nodup_map hids hmem hn heq ▸ hmade
  · exact fun h => List.mem_map.2 ⟨n, List.mem_filter.2 ⟨hn, h⟩, rfl⟩

/-- In a pruned description no reference is unknown. -/
lemma diagnostics_build_pruned {d : Description} (hids : d.ids.Nodup) (g : Graph) :
    ∃ problems, ((d.pruned catalogue).build catalogue g).2.diagnostics = g.diagnostics ++ problems ∧
      ∀ problem ∈ problems, ∀ node reference, problem ≠ .unknownReference node reference := by
  obtain ⟨mismatches, hmismatches, hcreated⟩ :=
    (creating_createNodes _ g (d.madeBy_pruned catalogue)).diagnostics
  have hlookup := lookup_isSome_pruned hids catalogue g
  unfold build
  generalize (d.pruned catalogue).createNodes catalogue g = s at hcreated hlookup
  obtain ⟨built, g₁⟩ := s
  have hnodes : ∀ n ∈ (d.pruned catalogue).nodes, (built.lookup n.id).isSome := fun n hn => by
    rw [hlookup, Bool.not_eq_true', isMissing_eq_false_iff hids]
    exact List.mem_map_of_mem hn
  have hreferences : ∀ n ∈ (d.pruned catalogue).nodes, ∀ reference ∈ n.references,
      Known built reference := by
    intro n hn reference hreference
    obtain ⟨m, -, rfl⟩ := List.mem_map.1 hn
    rw [NodeDescription.references_restrict] at hreference
    have hleads := (List.mem_filter.1 hreference).2
    rw [leads, ← hlookup, Bool.or_eq_true, isSome_literal?_iff] at hleads
    exact hleads
  have hroots : ∀ root ∈ (d.pruned catalogue).roots, (built.lookup root).isSome := fun root hroot => by
    rw [hlookup]
    exact (List.mem_filter.1 hroot).2
  dsimp only
  rw [resolveEach_roots hroots]
  refine ⟨mismatches ++ (d.pruned catalogue).nodes.flatMap outputProblems, ?_, ?_⟩
  · rw [diagnostics_wireSteps hnodes hreferences, hcreated, List.append_assoc]
  · intro problem hproblem node reference heq
    subst heq
    rcases List.mem_append.1 hproblem with hproblem | hproblem
    · obtain ⟨n, -, v, -, type, -, heq⟩ := hmismatches _ hproblem
      cases heq
    · obtain ⟨n, -, hproblem⟩ := List.mem_flatMap.1 hproblem
      obtain ⟨written, -, hproblem⟩ := List.mem_flatMap.1 hproblem
      rw [literalProblem] at hproblem
      split at hproblem
      · cases List.mem_singleton.1 hproblem
      · cases hproblem

/-- The nodes that the catalogue makes are created alike for both descriptions. -/
lemma agrees_createNodes_pruned (d : Description) (catalogue : Catalogue) (g : Graph) :
    Agrees (d.failures catalogue) (d.createNodes catalogue g)
      ((d.pruned catalogue).createNodes catalogue g) := by
  have hsteps := agrees_createSteps catalogue [] d.nodes (.refl g)
  have hpruned : (d.pruned catalogue).createNodes catalogue g =
      (d.nodes.filter (isMade catalogue)).foldl (createStep catalogue) ([], g) := by
    rw [createNodes, pruned, List.foldl_map]
    rfl
  rw [List.nil_append] at hsteps
  rw [hpruned]
  exact hsteps

/-- Roots that were created are resolved in both runs, and the others only reported. -/
lemma agrees_resolveRoots {d : Description}
    (hlookup : ∀ id, (ids.lookup id).isSome = !d.isMissing catalogue id) (h : Apart extra g g') :
    Agrees (extra ++ (d.lostRoots catalogue).map unknown) (resolveEach (resolveRoot ids) g d.roots)
      (resolveEach (resolveRoot ids) g' (d.pruned catalogue).roots) := by
  have hboth : ∀ root extra g g', Apart extra g g' →
      Agrees extra (resolveRoot ids g root) (resolveRoot ids g' root) := by
    intro root extra g g' h
    rw [resolveRoot, resolveRoot]
    cases ids.lookup root with
    | some id => exact ⟨rfl, h⟩
    | none => exact ⟨rfl, h.report _⟩
  have hlost : ∀ root, (!d.isMissing catalogue root) = false → ∀ g,
      resolveRoot ids g root = (none, g.report (.unknownReference "roots" root)) := by
    intro root hroot g
    rw [← hlookup] at hroot
    rw [resolveRoot, Option.isSome_eq_false_iff.1 hroot |> Option.isNone_iff_eq_none.1]
  have hroots := Agrees.resolveEach hboth hlost h d.roots
  simp only [Bool.not_not] at hroots
  rw [lostRoots, List.map_map]
  exact hroots

/-- **Faulty parts leave no trace**: a description is built as if the nodes that the catalogue does
not make, and the references and roots that lead nowhere, had been deleted from it. The roots are the
same, and the graphs differ only in problems. Each deleted node has its problem, each deleted
reference of a node that is made and each deleted root is one unknown reference, and there are no
others. -/
theorem build_pruned (d : Description) (catalogue : Catalogue) (g : Graph) (hids : d.ids.Nodup)
    (hfew : ∀ n ∈ d.nodes, ∀ references, n.outputs = some (.positional references) →
      references.length ≤ 1) :
    (d.build catalogue g).1 = ((d.pruned catalogue).build catalogue g).1 ∧
      Apart (d.failures catalogue ++
          (d.lostReferences catalogue ++ d.lostRoots catalogue).map unknown)
        (d.build catalogue g).2 ((d.pruned catalogue).build catalogue g).2 ∧
      ∃ problems,
        ((d.pruned catalogue).build catalogue g).2.diagnostics = g.diagnostics ++ problems ∧
          ∀ problem ∈ problems, ∀ node reference, problem ≠ .unknownReference node reference := by
  have hcreated := agrees_createNodes_pruned d catalogue g
  have hlookup := lookup_isSome_pruned hids catalogue g
  suffices hbuilt : Agrees (d.failures catalogue ++
      (d.lostReferences catalogue ++ d.lostRoots catalogue).map unknown)
      (d.build catalogue g) ((d.pruned catalogue).build catalogue g) from
    ⟨hbuilt.1, hbuilt.2, diagnostics_build_pruned hids g⟩
  unfold build
  generalize d.createNodes catalogue g = s at hcreated
  generalize (d.pruned catalogue).createNodes catalogue g = s' at hcreated hlookup
  obtain ⟨built, g₁⟩ := s
  obtain ⟨built', g₁'⟩ := s'
  obtain ⟨rfl, hg₁⟩ := hcreated
  have hleads : ∀ reference, d.leads catalogue reference =
      ((literal? reference).isSome || (built.lookup reference).isSome) :=
    fun reference => by rw [leads, ← hlookup]
  have hmade : ∀ n ∈ d.nodes, (built.lookup n.id).isSome = isMade catalogue n :=
    fun n hn => (hlookup n.id).trans (isMissing_of_mem hids hn)
  have hwired := Apart.wireSteps hleads hmade hfew hg₁
  rw [List.map_append, ← List.append_assoc]
  exact agrees_resolveRoots hlookup hwired

/-- A product that nothing is known to make stands among the inputs and the outputs of other nodes,
and among the roots. -/
def brokenTint : Description where
  nodes := [
    { id := "toon", nodeType := "Toon", inputs := some (.single "tint") },
    { id := "tint", nodeType := "Variable", args := [.text "vec4", .text "tint"] },
    { id := "mult", nodeType := "Mult", inputs := some (.positional ["toon", "=0.5", "tint"]),
      outputs := some (.named ⟨[("color", "tint"), ("depth", "far")], by decide⟩) },
    { id := "out", nodeType := "glFragColor", inputs := some (.single "toon") }]
  roots := ["toon", "out"]

theorem build_pruned_brokenTint :
    brokenTint.ids.Nodup ∧
      (brokenTint.build .builtin (ofStage .fragment)).1 =
        ((brokenTint.pruned .builtin).build .builtin (ofStage .fragment)).1 ∧
      Apart ([.unknownNode "Toon"] ++ [("mult", "toon"), ("mult", "far"), ("out", "toon"),
          ("roots", "toon")].map unknown)
        (brokenTint.build .builtin (ofStage .fragment)).2
        ((brokenTint.pruned .builtin).build .builtin (ofStage .fragment)).2 := by
  have hids : brokenTint.ids.Nodup := by decide
  have hfew : ∀ n ∈ brokenTint.nodes, ∀ references, n.outputs = some (.positional references) →
      references.length ≤ 1 := by
    intro n hn references houtputs
    have hnone : n.outputs = none ∨ ∃ pins, n.outputs = some (.named pins) := by
      simp only [brokenTint, List.mem_cons, List.not_mem_nil, or_false] at hn
      rcases hn with rfl | rfl | rfl | rfl
      all_goals first | exact .inl rfl | exact .inr ⟨_, rfl⟩
    rcases hnone with h | ⟨pins, h⟩
    all_goals rw [h] at houtputs; cases houtputs
  obtain ⟨hroots, hgraphs, -⟩ :=
    brokenTint.build_pruned .builtin (ofStage .fragment) hids hfew
  have hfailures : brokenTint.failures .builtin = [.unknownNode "Toon"] := by decide +kernel
  have hlost : brokenTint.lostReferences .builtin ++ brokenTint.lostRoots .builtin =
      [("mult", "toon"), ("mult", "far"), ("out", "toon"), ("roots", "toon")] := by decide +kernel
  rw [hfailures, hlost] at hgraphs
  exact ⟨hids, hroots, hgraphs⟩

end Description

end SceneShading
