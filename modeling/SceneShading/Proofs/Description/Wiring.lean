import Mathlib.Tactic
import SceneShading.Proofs.Description.Agreement

/-!
# Inputs of described nodes

A description declares that a node reads others and that it writes others, and a node is an input of
every node that it writes. The nodes are wired one after another, in the order of their descriptions:
references without pins are added to the inputs of a node, and named ones replace all that it has so
far, also the producers that were added to it in the meantime. What one description does to the inputs
of all nodes is said once (`Description.hasInput_wireStep`).

So a node is an input of another one exactly if a description adds it, and no later description of that
other node has named inputs (`Description.hasInput_build`). A variable may have several descriptions,
and each of them counts. Whether a producer stays an input therefore depends on the order of the
descriptions (`Description.hasInput_build_tintedFirst`, `Description.not_hasInput_build_tintedLast`).
-/

namespace SceneShading

/-! ## Inputs of nodes -/

namespace Graph

variable {g g' : Graph} {id target source : NodeId}

/-- The one node has the other one among its inputs. -/
def HasInput (g : Graph) (target source : NodeId) : Prop :=
  ∃ n, g.node? target = some n ∧ source ∈ n.inputNodes

instance (g : Graph) (target source : NodeId) : Decidable (g.HasInput target source) :=
  inferInstanceAs (Decidable (∃ n ∈ g.node? target, source ∈ n.inputNodes))

/-- The node is there, and is no built-in output. -/
def MayWrite (g : Graph) (id : NodeId) : Prop := ∃ kind, g.kind? id = some kind ∧ kind.isOutput = false

lemma Rewires.mayWrite_iff (h : Rewires g g') (id : NodeId) : g'.MayWrite id ↔ g.MayWrite id := by
  rw [MayWrite, h.kinds, MayWrite]

lemma hasInput_of_nodes (h : g'.nodes = g.nodes) :
    g'.HasInput target source ↔ g.HasInput target source := by
  rw [HasInput, node?, h]
  rfl

lemma StandsFor.mayWrite {kind : NodeKind} (h : g.StandsFor kind id) (hg : g.Referential)
    (hkind : kind.isOutput = false) : g.MayWrite id := by
  cases kind with
  | var v =>
    obtain ⟨w, hw, -⟩ := hg.find? h
    rw [declared?_eq] at hw
    obtain ⟨found, hfound, hw⟩ := Option.bind_eq_some_iff.1 hw
    refine ⟨found, hfound, ?_⟩
    cases found <;> first | rfl | cases hw
  | _ => exact ⟨_, h, hkind⟩

/-- A new node has no inputs. -/
lemma hasInput_insert (g : Graph) (kind : NodeKind) :
    (g.insert kind).2.HasInput target source ↔ g.HasInput target source := by
  rw [HasInput, node?_insert, HasInput]
  split
  next heq =>
    have hnone : g.node? target = none := Array.getElem?_eq_none_iff.2 heq.ge
    rw [hnone]
    constructor
    · rintro ⟨n, ⟨⟩, hsource⟩
      cases hsource
    · rintro ⟨n, ⟨⟩, -⟩
  next => rfl

lemma hasInput_createNode (g : Graph) (catalogue : Catalogue) (nodeType : String)
    (args : List NodeArg) :
    (g.createNode catalogue nodeType args).2.HasInput target source ↔ g.HasInput target source := by
  have hcreated := g.createAnswered_createNode catalogue nodeType args
  generalize g.createNode catalogue nodeType args = created at hcreated ⊢
  cases hcreated with
  | refused _ hquiet => exact hasInput_of_nodes hquiet.nodes
  | answered _ ha =>
    cases ha with
    | found hquiet => exact hasInput_of_nodes hquiet.nodes
    | made hquiet | joined hquiet =>
      exact (hasInput_insert _ (.var _)).trans (hasInput_of_nodes hquiet.nodes)
  | inserted _ _ hquiet => exact (hasInput_insert _ _).trans (hasInput_of_nodes hquiet.nodes)

/-- A change that is not one of inputs. -/
lemma hasInput_modify (g : Graph) (id : NodeId) {f : Node → Node} (hf : ∀ n, (f n).inputs = n.inputs) :
    (g.modify id f).HasInput target source ↔ g.HasInput target source := by
  by_cases hid : id < g.size
  · rw [HasInput, node?_modify hid, HasInput]
    split
    · simp [Node.inputNodes, hf]
    · rfl
  · rw [modify, if_neg hid]
    rfl

/-- Inputs without pins are added to those of the node, and named ones replace them. -/
lemma hasInput_wireInputs (hid : id < g.size) (inputs : InputSet) :
    (g.wireInputs id inputs).HasInput target source ↔
      (id = target ∧ source ∈ inputs.nodes) ∨
        (g.HasInput target source ∧ ¬(id = target ∧ inputs.IsNamed)) := by
  rw [HasInput, wireInputs, node?_modify hid, HasInput]
  by_cases htarget : id = target
  · subst htarget
    have hnode : g.node? id = some g.nodes[id] := Array.getElem?_eq_getElem hid
    simp [hnode, Node.mem_inputNodes_withInputs_iff]
  · simp [htarget, Ne.symm htarget]

/-- A node becomes an input of all its outputs, unless it is a built-in output. -/
lemma hasInput_wireOutputs (hid : id < g.size) {outputs : Outputs}
    (houtputs : ∀ target ∈ outputs.targets, target < g.size) :
    (g.wireOutputs id outputs).HasInput target source ↔
      g.HasInput target source ∨ (id = source ∧ g.MayWrite source ∧ target ∈ outputs.targets) := by
  have hnode : g.node? id = some g.nodes[id] := Array.getElem?_eq_getElem hid
  have hmay : g.MayWrite id ↔ g.nodes[id].kind.isOutput = false := by
    rw [MayWrite, kind?, hnode]
    simp
  unfold wireOutputs
  rw [hnode]
  simp only
  split
  next houtput =>
    refine (or_iff_left ?_).symm
    rintro ⟨rfl, hwrites, -⟩
    exact Bool.eq_false_iff.1 (hmay.1 hwrites) houtput
  next houtput =>
    refine (hasInput_modify (f := fun n => { n with outputs }) _ id fun _ => rfl).trans ?_
    rw [HasInput, node?_linkTargets]
    have hmem : ∀ n : Node, source ∈ (n.linked id (outputs.targets.count target)).inputNodes ↔
        source ∈ n.inputNodes ∨ (id = source ∧ target ∈ outputs.targets) := fun n => by
      rw [Node.mem_inputNodes_linked_iff, Ne, List.count_eq_zero, not_not]
    have hwrites : g.MayWrite id := hmay.2 (Bool.eq_false_iff.2 houtput)
    constructor
    · rintro ⟨n, hn, hsource⟩
      obtain ⟨m, hm, rfl⟩ := Option.map_eq_some_iff.1 hn
      refine ((hmem m).1 hsource).imp (fun h => ⟨m, hm, h⟩) ?_
      rintro ⟨rfl, htarget⟩
      exact ⟨rfl, hwrites, htarget⟩
    · rintro (⟨n, hn, hsource⟩ | ⟨rfl, -, htarget⟩)
      · exact ⟨_, Option.map_eq_some_iff.2 ⟨n, hn, rfl⟩, (hmem n).2 (.inl hsource)⟩
      · obtain ⟨n, hn⟩ : ∃ n, g.node? target = some n :=
          ⟨_, Array.getElem?_eq_getElem (houtputs target htarget)⟩
        exact ⟨_, Option.map_eq_some_iff.2 ⟨n, hn, rfl⟩, (hmem n).2 (.inr ⟨rfl, htarget⟩)⟩

/-- A node is wired: its inputs come first, and its outputs and the comment on it do not change them. -/
lemma hasInput_wire (hid : id < g.size) (inputs : Option InputSet) (outputs : Option Outputs)
    (houtputs : ∀ o, outputs = some o → ∀ target ∈ o.targets, target < g.size)
    (comment : Option String) :
    (let supplied := inputs.elim g (g.wireInputs id)
     let linked := outputs.elim supplied (supplied.wireOutputs id)
     comment.elim linked (linked.setComment id)).HasInput target source ↔
      ((id = target ∧ ∃ set, inputs = some set ∧ source ∈ set.nodes) ∨
        (id = source ∧ g.MayWrite source ∧ ∃ o, outputs = some o ∧ target ∈ o.targets)) ∨
        (g.HasInput target source ∧ ¬(id = target ∧ ∃ set, inputs = some set ∧ set.IsNamed)) := by
  have hsupplied : Rewires g (inputs.elim g (g.wireInputs id)) := by
    cases inputs with
    | none => exact .refl g
    | some set =>
      refine rewires_modify hid fun n => ?_
      cases set <;> rfl
  have hinputs : (inputs.elim g (g.wireInputs id)).HasInput target source ↔
      (id = target ∧ ∃ set, inputs = some set ∧ source ∈ set.nodes) ∨
        (g.HasInput target source ∧ ¬(id = target ∧ ∃ set, inputs = some set ∧ set.IsNamed)) := by
    cases inputs with
    | none => simp
    | some set => simpa using hasInput_wireInputs hid set
  have hmay := hsupplied.mayWrite_iff source
  have hsize := hsupplied.size_eq
  generalize inputs.elim g (g.wireInputs id) = supplied at hinputs hmay hsize ⊢
  have hlinked : (outputs.elim supplied (supplied.wireOutputs id)).HasInput target source ↔
      supplied.HasInput target source ∨
        (id = source ∧ g.MayWrite source ∧ ∃ o, outputs = some o ∧ target ∈ o.targets) := by
    cases outputs with
    | none => simp
    | some o =>
      have hwired : (supplied.wireOutputs id o).HasInput target source ↔
          supplied.HasInput target source ∨
            (id = source ∧ supplied.MayWrite source ∧ target ∈ o.targets) :=
        hasInput_wireOutputs (hsize ▸ hid) fun target htarget => hsize ▸ houtputs o rfl target htarget
      simpa [hmay] using hwired
  have hcommented : ∀ linked : Graph,
      (comment.elim linked (linked.setComment id)).HasInput target source ↔
        linked.HasInput target source := by
    intro linked
    cases comment with
    | none => rfl
    | some text => exact hasInput_modify linked id fun _ => rfl
  rw [hcommented, hlinked, hinputs, or_right_comm]

end Graph

namespace Description

open SceneShading.Graph

variable {catalogue : Catalogue} {g : Graph} {ids : BuiltIds} {id target source : NodeId}
  {α β : Type}

/-! ## What references stand for -/

/-- The reference stands for the node. -/
def RefersTo (ids : BuiltIds) (reference : String) (id : NodeId) : Prop :=
  ¬IsLiteral reference ∧ ids.lookup reference = some id

/-- The source that a reference stands for, whatever is reported. -/
def source? (ids : BuiltIds) (reference : String) : Option Source :=
  match literal? reference with
  | some text => some (.literal text)
  | none => (ids.lookup reference).map .node

lemma source?_bind_node?_eq_some_iff {reference : String} :
    (source? ids reference).bind Source.node? = some id ↔ RefersTo ids reference id := by
  unfold source? RefersTo
  cases hliteral : literal? reference with
  | some text =>
    have hmark : IsLiteral reference := isSome_literal?_iff.1 (by rw [hliteral]; rfl)
    exact iff_of_false (fun h => by cases h) fun h => h.1 hmark
  | none =>
    rw [and_iff_right (literal?_eq_none_iff.1 hliteral)]
    cases ids.lookup reference <;> rfl

lemma resolveSource_fst (node : String) (g : Graph) (reference : String) :
    (resolveSource ids node g reference).1 = source? ids reference := by
  unfold resolveSource source?
  cases literal? reference with
  | some text => rfl
  | none => cases ids.lookup reference <;> rfl

lemma resolveTarget_fst (node : String) (g : Graph) (reference : String) :
    (resolveTarget ids node g reference).1 = (source? ids reference).bind Source.node? := by
  rw [← resolveSource_fst node g]
  unfold resolveTarget
  generalize resolveSource ids node g reference = result
  obtain ⟨_ | _ | _, g'⟩ := result <;> rfl

/-- References are resolved one by one, each of them without regard to what was reported before. -/
lemma resolveEach_fst {resolve : Graph → α → Option β × Graph} {f : α → Option β}
    (h : ∀ g a, (resolve g a).1 = f a) (g : Graph) (xs : List α) :
    (resolveEach resolve g xs).1 = xs.filterMap f := by
  have hfold : ∀ (found : List β) (g : Graph),
      (xs.foldl (fun (s : List β × Graph) x =>
        (s.1 ++ (resolve s.2 x).1.toList, (resolve s.2 x).2)) (found, g)).1 =
          found ++ xs.filterMap f := by
    induction xs with
    | nil => exact fun found g => (List.append_nil found).symm
    | cons x xs ih =>
      intro found g
      rw [List.foldl_cons, ih, h, List.append_assoc]
      cases hx : f x with
      | none => rw [List.filterMap_cons_none hx]; rfl
      | some b => rw [List.filterMap_cons_some hx]; rfl
  exact hfold [] g

/-- What pins are wired to does not depend on their names. -/
lemma resolvePins_snd {resolve : Graph → String → Option β × Graph} {f : String → Option β}
    (h : ∀ g a, (resolve g a).1 = f a) (g : Graph) (pins : PinMap) :
    (resolvePins resolve g pins).1.map (·.2) = (pins.entries.map (·.2)).filterMap f := by
  let pinned (g : Graph) (e : String × String) : Option (String × β) × Graph :=
    ((resolve g e.2).1.map fun b => (e.1, b), (resolve g e.2).2)
  have hpinned : ∀ g e, (pinned g e).1 = (f e.2).map fun b => (e.1, b) := fun g e => by
    rw [← h g e.2]
  have hresolved : (resolvePins resolve g pins).1 =
      pins.entries.filterMap fun e => (f e.2).map fun b => (e.1, b) :=
    resolveEach_fst hpinned g pins.entries
  rw [hresolved, List.map_filterMap, List.filterMap_map]
  refine congrArg (List.filterMap · pins.entries) (funext fun e => ?_)
  rw [Option.map_map, Function.comp_apply]
  exact Option.map_id'

/-- The nodes among the inputs are those that references stand for. -/
lemma mem_resolveInputs_iff (node : String) (g : Graph) (inputs : PinsDescription) :
    (∃ set, (resolveInputs ids node g inputs).1 = some set ∧ source ∈ set.nodes) ↔
      ∃ reference ∈ inputs.references, RefersTo ids reference source := by
  simp only [← source?_bind_node?_eq_some_iff]
  cases inputs with
  | single reference =>
    have hfst : (resolveInputs ids node g (.single reference)).1 =
        (source? ids reference).map fun s => .positional [s] := by
      rw [← resolveSource_fst node g]
      rfl
    rw [hfst]
    cases hsource : source? ids reference with
    | none => simp [PinsDescription.references, hsource]
    | some s => simp [PinsDescription.references, hsource, InputSet.nodes]
  | positional references =>
    have hfst : (resolveInputs ids node g (.positional references)).1 =
        some (.positional (references.filterMap (source? ids))) := by
      rw [← resolveEach_fst (resolveSource_fst node) g]
      rfl
    rw [hfst]
    simp only [Option.some_inj, exists_eq_left', InputSet.nodes, List.filterMap_filterMap,
      List.mem_filterMap]
    rfl
  | named pins =>
    have hnodes : ∀ pairs : List (String × Source),
        (InputSet.named pairs).nodes = (pairs.map (·.2)).filterMap Source.node? := fun pairs => by
      rw [List.filterMap_map]
      rfl
    have hfst : (resolveInputs ids node g (.named pins)).1 =
        some (.named (resolvePins (resolveSource ids node) g pins).1) := rfl
    rw [hfst]
    simp only [Option.some_inj, exists_eq_left', hnodes, resolvePins_snd (resolveSource_fst node),
      List.filterMap_filterMap, List.mem_filterMap]
    rfl

/-- Inputs are named as they are described. -/
lemma isNamed_resolveInputs_iff (node : String) (g : Graph) (inputs : PinsDescription) :
    (∃ set, (resolveInputs ids node g inputs).1 = some set ∧ set.IsNamed) ↔
      ∃ pins, inputs = .named pins := by
  cases inputs with
  | single reference =>
    refine iff_of_false ?_ (by rintro ⟨pins, ⟨⟩⟩)
    rintro ⟨set, hset, pins, rfl⟩
    obtain ⟨s, -, ⟨⟩⟩ := Option.map_eq_some_iff.1 hset
  | positional references =>
    refine iff_of_false ?_ (by rintro ⟨pins, ⟨⟩⟩)
    rintro ⟨set, ⟨⟩, pins, ⟨⟩⟩
  | named pins => exact iff_of_true ⟨_, rfl, _, rfl⟩ ⟨pins, rfl⟩

/-- The targets among the outputs are the nodes that the used references stand for. -/
lemma mem_resolveOutputs_iff (node : String) (g : Graph) (outputs : PinsDescription) :
    (∃ declared, (resolveOutputs ids node g outputs).1 = some declared ∧ target ∈ declared.targets) ↔
      ∃ reference ∈ usedOutputs outputs, RefersTo ids reference target := by
  have hsingle : ∀ (g : Graph) reference,
      (∃ declared, (resolveTarget ids node g reference).1.map Outputs.single = some declared ∧
        target ∈ declared.targets) ↔ RefersTo ids reference target := by
    intro g reference
    rw [← source?_bind_node?_eq_some_iff, ← resolveTarget_fst node g]
    cases (resolveTarget ids node g reference).1 with
    | none => simp
    | some id => simp [Outputs.targets, eq_comm]
  cases outputs with
  | single reference => exact (hsingle g reference).trans (by simp [usedOutputs])
  | positional references =>
    cases references with
    | nil => simp [resolveOutputs, usedOutputs]
    | cons first rest => exact (hsingle _ first).trans (by simp [usedOutputs])
  | named pins =>
    have hfst : (resolveOutputs ids node g (.named pins)).1 =
        some (.named (resolvePins (resolveTarget ids node) g pins).1) := rfl
    rw [hfst]
    simp only [Option.some_inj, exists_eq_left', Outputs.targets,
      resolvePins_snd (resolveTarget_fst node), List.mem_filterMap, source?_bind_node?_eq_some_iff]
    rfl

/-! ## Wiring -/

/-- The described node reads the source. -/
def Reads (ids : BuiltIds) (n : NodeDescription) (source : NodeId) : Prop :=
  ∃ inputs, n.inputs = some inputs ∧ ∃ reference ∈ inputs.references, RefersTo ids reference source

/-- The described node is to write the target. -/
def Writes (ids : BuiltIds) (n : NodeDescription) (target : NodeId) : Prop :=
  ∃ outputs, n.outputs = some outputs ∧ ∃ reference ∈ usedOutputs outputs,
    RefersTo ids reference target

/-- The description makes the source an input of the target: it is one of the target, which reads the
source, or one of the source, which writes the target. -/
def Adds (g : Graph) (ids : BuiltIds) (n : NodeDescription) (target source : NodeId) : Prop :=
  (ids.lookup n.id = some target ∧ Reads ids n source) ∨
    (ids.lookup n.id = some source ∧ g.MayWrite source ∧ Writes ids n target)

/-- The description gives the target its inputs by name. -/
def Replaces (ids : BuiltIds) (n : NodeDescription) (target : NodeId) : Prop :=
  ids.lookup n.id = some target ∧ ∃ pins, n.inputs = some (.named pins)

lemma reads_iff (ids : BuiltIds) (n : NodeDescription) (g : Graph) (source : NodeId) :
    (∃ set, (resolveOptional (resolveInputs ids n.id) g n.inputs).1 = some set ∧ source ∈ set.nodes) ↔
      Reads ids n source := by
  unfold Reads
  cases n.inputs with
  | none => simp [resolveOptional]
  | some inputs =>
    simp only [Option.some_inj, exists_eq_left']
    exact mem_resolveInputs_iff n.id g inputs

lemma named_iff (ids : BuiltIds) (n : NodeDescription) (g : Graph) :
    (∃ set, (resolveOptional (resolveInputs ids n.id) g n.inputs).1 = some set ∧ set.IsNamed) ↔
      ∃ pins, n.inputs = some (.named pins) := by
  cases n.inputs with
  | none => simp [resolveOptional]
  | some inputs =>
    simp only [Option.some_inj]
    exact isNamed_resolveInputs_iff n.id g inputs

lemma writes_iff (ids : BuiltIds) (n : NodeDescription) (g : Graph) (target : NodeId) :
    (∃ outputs, (resolveOptional (resolveOutputs ids n.id) g n.outputs).1 = some outputs ∧
      target ∈ outputs.targets) ↔ Writes ids n target := by
  unfold Writes
  cases n.outputs with
  | none => simp [resolveOptional]
  | some outputs =>
    simp only [Option.some_inj, exists_eq_left']
    exact mem_resolveOutputs_iff n.id g outputs

/-- What one description does to the inputs of all nodes: it adds some, and the earlier ones stay
unless it replaces them. -/
lemma hasInput_wireStep (hids : ∀ e ∈ ids, e.2 < g.size) (n : NodeDescription) :
    (wireStep ids g n).HasInput target source ↔
      Adds g ids n target source ∨ (g.HasInput target source ∧ ¬Replaces ids n target) := by
  unfold wireStep Adds Replaces
  cases hid : ids.lookup n.id with
  | none => simp
  | some id =>
    have hlt : id < g.size := lt_of_lookup hids hid
    have hreads := reads_iff ids n g source
    have hnamed := named_iff ids n g
    obtain ⟨hquiet, -⟩ := (finds_inputs hids n.id).optional g n.inputs
    simp only
    generalize resolveOptional (resolveInputs ids n.id) g n.inputs = inputs at *
    obtain ⟨inputs, g₁⟩ := inputs
    have hwrites := writes_iff ids n g₁ target
    obtain ⟨hquiet', htargets⟩ := (finds_outputs hids n.id).optional g₁ n.outputs
    simp only
    generalize resolveOptional (resolveOutputs ids n.id) g₁ n.outputs = outputs at *
    obtain ⟨outputs, g₂⟩ := outputs
    have hresolved := hquiet.trans hquiet'
    have hsize : g₂.size = g.size := hresolved.rewires.size_eq
    refine (hasInput_wire (hsize.symm ▸ hlt) inputs outputs
      (fun o ho target htarget => hsize ▸ htargets o ho target htarget) n.comment).trans ?_
    simp only at hreads hnamed hwrites
    rw [hreads, hnamed, hwrites, hasInput_of_nodes hresolved.nodes, hresolved.rewires.mayWrite_iff]
    simp only [Option.some_inj]

/-- What all descriptions do to the inputs of all nodes: one of them adds an input, and no later one
replaces it. -/
lemma hasInput_wireSteps (h : g.Referential) (hids : ∀ e ∈ ids, e.2 < g.size)
    (nodes : List NodeDescription) (target source : NodeId) :
    (nodes.foldl (wireStep ids) g).HasInput target source ↔
      (∃ front n back, nodes = front ++ n :: back ∧ Adds g ids n target source ∧
        ∀ later ∈ back, ¬Replaces ids later target) ∨
        (g.HasInput target source ∧ ∀ n ∈ nodes, ¬Replaces ids n target) := by
  induction nodes generalizing g with
  | nil => simp
  | cons n nodes ih =>
    have hfirst := rewired_wireStep h hids n
    have hrest := ih hfirst.referential fun e he => hfirst.rewires.size_eq ▸ hids e he
    have hadds : ∀ m, Adds (wireStep ids g n) ids m target source ↔ Adds g ids m target source :=
      fun m => by rw [Adds, hfirst.rewires.mayWrite_iff, Adds]
    simp only [hadds] at hrest
    rw [List.foldl_cons, hrest, hasInput_wireStep hids, List.forall_mem_cons]
    constructor
    · rintro (⟨front, m, back, rfl, hadd, hlater⟩ | ⟨hadd | ⟨hold, hkeep⟩, hlater⟩)
      · exact .inl ⟨n :: front, m, back, rfl, hadd, hlater⟩
      · exact .inl ⟨[], n, nodes, rfl, hadd, hlater⟩
      · exact .inr ⟨hold, hkeep, hlater⟩
    · rintro (⟨front, m, back, hnodes, hadd, hlater⟩ | ⟨hold, hkeep, hlater⟩)
      · rcases List.cons_eq_append_iff.1 hnodes with ⟨rfl, hnodes⟩ | ⟨front, rfl, rfl⟩
        · obtain ⟨rfl, rfl⟩ := List.cons.inj hnodes
          exact .inr ⟨.inl hadd, hlater⟩
        · exact .inl ⟨front, m, back, rfl, hadd, hlater⟩
      · exact .inr ⟨.inr ⟨hold, hkeep⟩, hlater⟩

/-! ## Building -/

/-- Nodes are created without inputs. -/
lemma hasInput_createNodes (d : Description) (catalogue : Catalogue) (g : Graph)
    (target source : NodeId) :
    (d.createNodes catalogue g).2.HasInput target source ↔ g.HasInput target source := by
  have hfold : ∀ (nodes : List NodeDescription) (s : BuiltIds × Graph),
      (nodes.foldl (createStep catalogue) s).2.HasInput target source ↔ s.2.HasInput target source := by
    intro nodes
    induction nodes with
    | nil => exact fun s => Iff.rfl
    | cons n nodes ih =>
      intro s
      rw [List.foldl_cons, ih, ← hasInput_createNode s.2 catalogue n.nodeType n.args]
      unfold createStep
      generalize s.2.createNode catalogue n.nodeType n.args = result
      obtain ⟨_ | id, g'⟩ := result <;> rfl
  exact hfold d.nodes ([], g)

/-- The inputs of the nodes of a described graph, whatever the description asks for. -/
lemma hasInput_build_iff (d : Description) (hg : Created ([], g)) :
    (d.build catalogue g).2.HasInput target source ↔
      (∃ front n back, d.nodes = front ++ n :: back ∧
        Adds (d.build catalogue g).2 (d.createNodes catalogue g).1 n target source ∧
          ∀ later ∈ back, ¬Replaces (d.createNodes catalogue g).1 later target) ∨
        (g.HasInput target source ∧ ∀ n ∈ d.nodes, ¬Replaces (d.createNodes catalogue g).1 n target) := by
  have hcreated := d.created_createNodes catalogue hg
  have hnone := d.hasInput_createNodes catalogue g target source
  simp only [Adds, (d.rewired_build catalogue hg).1.rewires.mayWrite_iff]
  unfold build
  generalize d.createNodes catalogue g = s at hcreated hnone ⊢
  obtain ⟨ids, g₁⟩ := s
  have hinputs := hasInput_wireSteps hcreated.referential hcreated.ids d.nodes target source
  obtain ⟨hquiet, -⟩ := (finds_root hcreated.ids).each (d.nodes.foldl (wireStep ids) g₁) d.roots
  rw [hnone] at hinputs
  exact (hasInput_of_nodes hquiet.nodes).trans hinputs

lemma usedOutputs_subset (outputs : PinsDescription) : usedOutputs outputs ⊆ outputs.references := by
  cases outputs with
  | single reference => exact List.Subset.refl _
  | positional references => exact fun reference h => List.mem_of_mem_head? (Option.mem_toList.1 h)
  | named pins => exact List.Subset.refl _

/-- Every described node of a valid description has a node that it stands for. -/
lemma exists_standsFor {d : Description} (hvalid : d.Valid) (hmade : d.MadeBy catalogue)
    (hg : Created ([], g)) {n : NodeDescription} (hn : n ∈ d.nodes) :
    ∃ id kind, (d.createNodes catalogue g).1.lookup n.id = some id ∧
      catalogue.create n.nodeType n.args = .ok kind ∧ (d.build catalogue g).2.StandsFor kind id := by
  have hcreating := creating_createNodes d g hmade
  have hmem : n.id ∈ (d.createNodes catalogue g).1.map (·.1) := by
    rw [hcreating.ids]
    exact List.mem_reverse.2 (List.mem_map_of_mem hn)
  obtain ⟨id, hid⟩ := Option.isSome_iff_exists.1 (lookup_isSome_of_mem hmem)
  obtain ⟨front, back, hentries, -⟩ := List.lookup_eq_some_iff.1 hid
  obtain ⟨m, hm, hname, kind, hkind, hstands⟩ := hcreating.made (n.id, id)
    (hentries ▸ List.mem_append_right _ List.mem_cons_self)
  obtain rfl := List.inj_on_of_nodup_map hvalid.distinct hm hn hname
  exact ⟨id, kind, hid, hkind, hstands.retains (d.rewired_build catalogue hg).1.rewires.retains⟩

/-- **A producer stays an input, unless a later description gives its target inputs by name.** In a
validated description whose nodes can be made, every identifier is that of a node. A node is an input
of another one exactly if a description makes it one, and no later description of that other node has
named inputs. In particular, a described node that is no built-in output is an input of every node
that its outputs refer to, if none of the descriptions after its own gives that node inputs by name:
it does not matter in which order the others are, and how they refer to their inputs. -/
theorem hasInput_build (d : Description) (catalogue : Catalogue) (stage : Stage)
    (customFragment : Bool) (hvalid : d.validate = .ok ()) (hmade : d.MadeBy catalogue) :
    let empty : Graph := { ofStage stage with customFragment }
    let ids := (d.createNodes catalogue empty).1
    let built := (d.build catalogue empty).2
    (∀ n ∈ d.nodes, ∃ id kind, ids.lookup n.id = some id ∧
      catalogue.create n.nodeType n.args = .ok kind ∧ built.StandsFor kind id) ∧
      (∀ target source, built.HasInput target source ↔
        ∃ front n back, d.nodes = front ++ n :: back ∧ Adds built ids n target source ∧
          ∀ later ∈ back, ¬Replaces ids later target) ∧
      ∀ front n back kind outputs reference, d.nodes = front ++ n :: back →
        catalogue.create n.nodeType n.args = .ok kind → kind.isOutput = false →
          n.outputs = some outputs → reference ∈ usedOutputs outputs → ¬IsLiteral reference →
            ∃ source target, ids.lookup n.id = some source ∧ ids.lookup reference = some target ∧
              ((∀ later ∈ back, ¬Replaces ids later target) → built.HasInput target source) := by
  intro empty ids built
  have hvalid := (validate_eq_ok_iff d).1 hvalid
  have hempty : Created ([], empty) := created_empty stage customFragment
  have hstands := fun n (hn : n ∈ d.nodes) => exists_standsFor hvalid hmade hempty hn
  have hinputs : ∀ target source, built.HasInput target source ↔
      ∃ front n back, d.nodes = front ++ n :: back ∧ Adds built ids n target source ∧
        ∀ later ∈ back, ¬Replaces ids later target := by
    intro target source
    have hnone : ¬empty.HasInput target source := by rintro ⟨n, ⟨⟩, -⟩
    exact (d.hasInput_build_iff hempty).trans (or_iff_left fun h => hnone h.1)
  refine ⟨hstands, hinputs, ?_⟩
  intro front n back kind outputs reference hnodes hkind hwrites houtputs hused hliteral
  have hn : n ∈ d.nodes := hnodes ▸ List.mem_append_right _ List.mem_cons_self
  have hreference : reference ∈ n.references := by
    rw [NodeDescription.references, houtputs]
    exact List.mem_flatMap.2
      ⟨outputs, List.mem_append_right _ List.mem_cons_self, usedOutputs_subset outputs hused⟩
  obtain ⟨m, hm, rfl⟩ := List.mem_map.1
    ((hvalid.references n hn reference hreference).resolve_left hliteral)
  obtain ⟨source, made, hsource, hmade', hstandsFor⟩ := hstands n hn
  obtain ⟨target, -, htarget, -⟩ := hstands m hm
  refine ⟨source, target, hsource, htarget, fun hlater => (hinputs target source).2 ?_⟩
  have hmay : built.MayWrite source := by
    rw [hkind] at hmade'
    cases hmade'
    exact hstandsFor.mayWrite (d.rewired_build catalogue hempty).1.referential hwrites
  exact ⟨front, n, back, hnodes,
    .inr ⟨hsource, hmay, outputs, houtputs, m.id, hused, hliteral, htarget⟩, hlater⟩

/-- It can be tried whether a catalogue makes all nodes. -/
instance (d : Description) (catalogue : Catalogue) : Decidable (d.MadeBy catalogue) :=
  decidable_of_iff (∀ n ∈ d.nodes, (catalogue.create n.nodeType n.args).isOk = true) <|
    forall₂_congr fun n _ => by
      cases catalogue.create n.nodeType n.args <;> simp [Except.isOk, Except.toBool]

/-- A variable is filled with a color, and read to be the color of a fragment. The descriptions of the
variable and of the node that fills it stand in the middle. -/
def tinted (middle : List NodeDescription) : Description where
  nodes :=
    { id := "color", nodeType := "Uniform", args := [.text "vec4", .text "uColor"] } :: middle ++
      [{ id := "out", nodeType := "glFragColor" },
        { id := "set", nodeType := "SetFromNode", inputs := some (.positional ["tint"]),
          outputs := some (.single "out") }]
  roots := ["out"]

/-- The variable, with an input by name. -/
def tint : NodeDescription where
  id := "tint"
  nodeType := "Variable"
  args := [.text "vec4", .text "tint"]
  inputs := some (.named ⟨[("base", "color")], by decide⟩)

/-- The node that fills the variable. -/
def copy : NodeDescription where
  id := "copy"
  nodeType := "SetFromNode"
  inputs := some (.positional ["color"])
  outputs := some (.single "tint")

/-- The variable is described before the node that fills it, which stays its input. -/
theorem hasInput_build_tintedFirst :
    (tinted [tint, copy]).validate = .ok () ∧ (tinted [tint, copy]).MadeBy .builtin ∧
      ((tinted [tint, copy]).build .builtin
        { ofStage .fragment with customFragment := false }).2.HasInput 1 2 := by
  have hvalid : (tinted [tint, copy]).validate = .ok () := by decide +kernel
  have hmade : (tinted [tint, copy]).MadeBy .builtin := by decide +kernel
  have hkind : Catalogue.builtin.create copy.nodeType copy.args = .ok .setFromNode := by decide +kernel
  obtain ⟨-, -, hproducers⟩ := hasInput_build (tinted [tint, copy]) .builtin .fragment false hvalid hmade
  obtain ⟨source, target, hsource, htarget, hinput⟩ := hproducers [_, tint] copy [_, _] _ _ "tint"
    rfl hkind rfl rfl List.mem_cons_self (by decide)
  have hcopy : ((tinted [tint, copy]).createNodes .builtin
      { ofStage .fragment with customFragment := false }).1.lookup copy.id = some 2 := by decide +kernel
  have htint : ((tinted [tint, copy]).createNodes .builtin
      { ofStage .fragment with customFragment := false }).1.lookup "tint" = some 1 := by decide +kernel
  obtain rfl := Option.some.inj (hcopy.symm.trans hsource)
  obtain rfl := Option.some.inj (htint.symm.trans htarget)
  refine ⟨hvalid, hmade, hinput fun later hlater hreplaces => ?_⟩
  -- the descriptions after that of the node have no named inputs
  obtain ⟨pins, hpins⟩ := hreplaces.2
  rcases List.mem_pair.1 hlater with rfl | rfl <;> cases hpins

/-- The variable is described after the node that fills it: its named input replaces that node, and
nothing fills the variable. -/
theorem not_hasInput_build_tintedLast :
    (tinted [copy, tint]).validate = .ok () ∧ (tinted [copy, tint]).MadeBy .builtin ∧
      ((tinted [copy, tint]).createNodes .builtin (ofStage .fragment)).1.lookup "copy" = some 1 ∧
      ((tinted [copy, tint]).createNodes .builtin (ofStage .fragment)).1.lookup "tint" = some 2 ∧
      ¬((tinted [copy, tint]).build .builtin (ofStage .fragment)).2.HasInput 2 1 := by
  decide +kernel

end Description

end SceneShading
