import Mathlib.Tactic
import SceneShading.Proofs.Graph.Makes

/-!
# Graphs that refer to nothing missing

The variables of a described graph have any names, and they may collide with the names that builders
use. What holds in spite of that: every number in a graph is the number of a node, and what is
registered or a varying is a variable of that name (`Graph.Referential`). So nothing is asked of a node that does
not exist, and what a builder finds under a name can be read, whatever it is.

A builder goes on from the graph that it is given (`Graph.Builds`): it adds nodes, and links them to
variables and built-in outputs. `Keeps` judges builders by this. What a builder may rely on, and what
it gives, are facts that last while building goes on: that a node is an operand, and that a variable
is fed, which is to say that an operation which assigns to it is one of its inputs.
-/

namespace SceneShading

variable {g g' g'' : Graph} {id : NodeId} {kind : NodeKind} {α β : Type}

/-- The nodes among sources that are wired at once. -/
def InputSet.nodes : InputSet → List NodeId
  | .positional sources => sources.filterMap Source.node?
  | .named pins => pins.filterMap fun p => p.2.node?

/-- The nodes of pins. -/
@[simp] lemma Pins.nodes_inputs (pins : Pins) : pins.inputs.nodes = pins.map (·.2) := by
  change (pins.map fun p => (p.1, Source.node p.2)).filterMap (·.2.node?) = _
  rw [List.filterMap_map]
  exact congrFun (List.filterMap_eq_map' (f := Prod.snd)) pins

/-- The nodes of inputs without pins. -/
@[simp] lemma InputSet.nodes_ofNodes (ids : List NodeId) : (InputSet.ofNodes ids).nodes = ids := by
  change (ids.map Source.node).filterMap Source.node? = _
  rw [List.filterMap_map]
  exact List.filterMap_some

/-- Named inputs are all that a node is wired to. -/
lemma Node.inputNodes_withInputs_named (n : Node) (pins : List (String × Source)) :
    (n.withInputs (.named pins)).inputNodes = (InputSet.named pins).nodes := by
  unfold withInputs inputNodes InputSet.nodes
  rw [List.filterMap_map]
  rfl

/-- The inputs of a node that had none are those that it is wired to. -/
lemma Node.inputNodes_withInputs (n : Node) (inputs : InputSet) (h : n.inputs = []) :
    (n.withInputs inputs).inputNodes = inputs.nodes := by
  cases inputs with
  | positional sources =>
    rw [inputNodes_withInputs_positional, inputNodes, h]
    rfl
  | named pins => exact n.inputNodes_withInputs_named pins

namespace Graph

/-- Every number in the graph is the number of a node, and what is registered or a varying is a
variable of that name. -/
structure Referential (g : Graph) : Prop where
  inputs : ∀ id n, g.node? id = some n → ∀ input ∈ n.inputNodes, input < g.size
  outputs : ∀ id n, g.node? id = some n → ∀ target ∈ n.outputs.targets, target < g.size
  registry : ∀ e ∈ g.registry.entries, ∃ v, g.declared? e.2 = some v ∧ v.name = e.1
  varyings : ∀ e ∈ g.varyings, ∃ v, g.declared? e.2 = some v ∧ v.cls = .varying ∧ v.name = e.1

/-- The graph has the nodes of the older one, and maybe new ones. Variables and built-in outputs may
have further inputs; other nodes stay as they are. -/
structure Builds (g g' : Graph) : Prop where
  nodes : ∀ id n, g.node? id = some n → ∃ more,
    g'.node? id = some { n with inputs := n.inputs ++ more } ∧
      (n.kind.operand? = none → more = [])
  fault : g'.fault = g.fault

/-- Only the problems and the journal differ, and no problem is forgotten. -/
structure Quiet (g g' : Graph) : Prop where
  nodes : g'.nodes = g.nodes
  registry : g'.registry = g.registry
  varyings : g'.varyings = g.varyings
  fault : g'.fault = g.fault
  diagnostics : g.diagnostics ⊆ g'.diagnostics

/-- The graph without nodes refers to nothing. -/
lemma referential_ofStage (stage : Stage) : (ofStage stage).Referential := by
  refine ⟨fun id n hn => ?_, fun id n hn => ?_, by simp [ofStage], by simp [ofStage]⟩
  all_goals simp [ofStage, node?] at hn

lemma Builds.refl (g : Graph) : Builds g g :=
  ⟨fun _ n hn => ⟨[], by rw [hn, List.append_nil], fun _ => rfl⟩, rfl⟩

/-- One change after another. -/
lemma Builds.trans (h : Builds g g') (h' : Builds g' g'') : Builds g g'' := by
  refine ⟨fun id n hn => ?_, h'.fault.trans h.fault⟩
  obtain ⟨more, hmore, hnone⟩ := h.nodes id n hn
  obtain ⟨more', hmore', hnone'⟩ := h'.nodes id _ hmore
  refine ⟨more ++ more', by rw [hmore', List.append_assoc], fun hoperand => ?_⟩
  rw [hnone hoperand, hnone' hoperand, List.append_nil]

/-- What is built on a graph lets it grow. -/
lemma Builds.grows (h : Builds g g') : g.Grows g' := by
  intro id kind hkind
  obtain ⟨n, hn, rfl⟩ := Option.map_eq_some_iff.1 hkind
  obtain ⟨more, hmore, -⟩ := h.nodes id n hn
  rw [kind?, hmore]
  rfl

lemma Quiet.refl (g : Graph) : Quiet g g := ⟨rfl, rfl, rfl, rfl, List.Subset.refl _⟩

lemma Quiet.trans (h : Quiet g g') (h' : Quiet g' g'') : Quiet g g'' :=
  ⟨h'.nodes.trans h.nodes, h'.registry.trans h.registry, h'.varyings.trans h.varyings,
    h'.fault.trans h.fault, List.Subset.trans h.diagnostics h'.diagnostics⟩

/-- A quiet change keeps all nodes. -/
lemma Quiet.builds (h : Quiet g g') : Builds g g' := by
  refine ⟨fun id n hn => ⟨[], ?_, fun _ => rfl⟩, h.fault⟩
  rw [node?, h.nodes, List.append_nil]
  exact hn

/-- A quiet change keeps all references. -/
lemma Quiet.referential (h : Quiet g g') (hg : g.Referential) : g'.Referential := by
  obtain ⟨hinputs, houtputs, hregistry, hvaryings⟩ := hg
  have hnode : ∀ id, g'.node? id = g.node? id := fun id => by rw [node?, h.nodes, node?]
  have hsize : g'.size = g.size := by rw [size, h.nodes, size]
  have hdeclared : ∀ id, g'.declared? id = g.declared? id := fun id => by
    rw [declared?, hnode, declared?]
  refine ⟨fun id n hn => ?_, fun id n hn => ?_, ?_, ?_⟩
  · exact hsize ▸ hinputs id n (hnode id ▸ hn)
  · exact hsize ▸ houtputs id n (hnode id ▸ hn)
  · simpa only [h.registry, hdeclared] using hregistry
  · simpa only [h.varyings, hdeclared] using hvaryings

/-- An entry of the journal is no problem. -/
lemma quiet_note (g : Graph) (n : Notice) : Quiet g (g.note n) :=
  ⟨rfl, rfl, rfl, rfl, List.Subset.refl _⟩

lemma quiet_noteIf (g : Graph) (condition : Bool) (n : Notice) : Quiet g (g.noteIf condition n) := by
  unfold noteIf
  split
  · exact g.quiet_note n
  · exact .refl g

lemma quiet_report (g : Graph) (d : Diagnostic) : Quiet g (g.report d) :=
  ⟨rfl, rfl, rfl, rfl, List.subset_append_left _ _⟩

/-- Looking at the type of a variable leaves at most a problem. -/
lemma quiet_checkType (g : Graph) (existing : NodeId) (name type : String) :
    Quiet g (g.checkType existing name type).2 := by
  unfold checkType
  split
  · split
    · exact .refl g
    · exact quiet_report g _
  · exact .refl g

/-! ## New nodes -/

/-- A new node has the next number. -/
lemma size_lt_size_insert (g : Graph) (kind : NodeKind) : g.size < (g.insert kind).2.size := by
  have hsize : (g.insert kind).2.size = g.size + 1 := Array.size_push _
  exact hsize ▸ Nat.lt_succ_self _

/-- A new node without wiring keeps all nodes. -/
lemma builds_insert (g : Graph) (kind : NodeKind) : Builds g (g.insert kind).2 := by
  refine ⟨fun id n hn => ⟨[], ?_, fun _ => rfl⟩, rfl⟩
  have hid : id ≠ g.size := by
    rintro rfl
    exact absurd (Array.getElem?_eq_some_iff.1 hn).1 (Nat.lt_irrefl _)
  rw [node?_insert, if_neg hid, hn, List.append_nil]

/-- A new node without wiring refers to nothing. -/
lemma Referential.insert (h : g.Referential) (kind : NodeKind) : (g.insert kind).2.Referential := by
  have hgrows := (builds_insert g kind).grows
  have hsize : (g.insert kind).2.size = g.size + 1 := Array.size_push _
  have hold : ∀ id n, (g.insert kind).2.node? id = some n → n = { id := g.size, kind } ∨
      g.node? id = some n := by
    intro id n hn
    rw [node?_insert] at hn
    split at hn
    · exact .inl (Option.some.inj hn).symm
    · exact .inr hn
  refine ⟨fun id n hn input hinput => ?_, fun id n hn target htarget => ?_, fun e he => ?_,
    fun e he => ?_⟩
  · rcases hold id n hn with rfl | hn
    · cases hinput
    · exact hsize ▸ Nat.lt_succ_of_lt (h.inputs id n hn input hinput)
  · rcases hold id n hn with rfl | hn
    · cases htarget
    · exact hsize ▸ Nat.lt_succ_of_lt (h.outputs id n hn target htarget)
  · exact (h.registry e he).imp fun v hv => ⟨hgrows.declared? hv.1, hv.2⟩
  · exact (h.varyings e he).imp fun v hv => ⟨hgrows.declared? hv.1, hv.2⟩

/-- The new variable is what it is. -/
lemma declared?_insertVariable (g : Graph) (v : Variable) :
    (g.insertVariable v).2.declared? (g.insertVariable v).1 = some v := by
  have hnode := node?_insert g (.var v) g.size
  rw [if_pos rfl] at hnode
  change ((g.insert (.var v)).2.node? g.size).bind _ = _
  rw [hnode]
  rfl

lemma builds_insertVariable (g : Graph) (v : Variable) : Builds g (g.insertVariable v).2 :=
  ⟨(builds_insert g (.var v)).nodes, rfl⟩

/-- The graph has a variable more, which stands for its name and is among the varyings if it is one. -/
structure Gains (g g' : Graph) (v : Variable) : Prop where
  find : ∀ name, g'.find? name = if name = v.name then some g.size else g.find? name
  declared : g'.declared? g.size = some v
  grows : g.Grows g'
  diagnostics : g'.diagnostics = g.diagnostics
  varyings : g.varyings ⊆ g'.varyings
  joined : v.cls = .varying → (v.name, g.size) ∈ g'.varyings

/-- A variable is added, and joins the varyings if it is one. -/
lemma gains_insertVariable (g : Graph) (v : Variable) :
    g.Gains (if v.cls = .varying then (g.insertVariable v).2.addVarying v.name g.size
      else (g.insertVariable v).2) v := by
  have hgrows := (g.builds_insertVariable v).grows
  split
  next =>
    exact ⟨g.find?_insertVariable v, declared?_insertVariable g v, hgrows, rfl,
      List.subset_append_left _ _, fun _ => List.mem_append_right _ List.mem_cons_self⟩
  next hcls =>
    exact ⟨g.find?_insertVariable v, declared?_insertVariable g v, hgrows, rfl,
      List.Subset.refl _, fun hvarying => absurd hvarying hcls⟩

/-- Names that are taken go on to stand for the same nodes. -/
lemma Gains.find?_of_find? {v : Variable} (h : g.Gains g' v) (hfree : g.find? v.name = none)
    {name : String} (hfind : g.find? name = some id) : g'.find? name = some id := by
  have hne : name ≠ v.name := by
    rintro rfl
    rw [hfree] at hfind
    cases hfind
  rw [h.find, if_neg hne, hfind]

/-- The new variable is registered. -/
lemma Referential.insertVariable (h : g.Referential) (v : Variable) :
    (g.insertVariable v).2.Referential := by
  have hinserted := h.insert (.var v)
  have hnew := declared?_insertVariable g v
  refine ⟨hinserted.inputs, hinserted.outputs, fun e he => ?_, hinserted.varyings⟩
  rcases Registry.mem_register he with hold | rfl
  · exact hinserted.registry e hold
  · exact ⟨v, hnew, rfl⟩

/-- A varying joins the varyings. -/
lemma Referential.addVarying (h : g.Referential) {v : Variable} (hid : g.declared? id = some v)
    (hcls : v.cls = .varying) : (g.addVarying v.name id).Referential := by
  refine ⟨h.inputs, h.outputs, h.registry, fun e he => ?_⟩
  rcases List.mem_append.1 he with he | he
  · exact h.varyings e he
  · rw [List.mem_singleton.1 he]
    exact ⟨v, hid, hcls, rfl⟩

/-- A registered name is that of a variable. -/
lemma Referential.find? (h : g.Referential) {name : String} (hfind : g.find? name = some id) :
    ∃ v, g.declared? id = some v ∧ v.name = name := by
  obtain ⟨front, back, hentries, -⟩ := List.lookup_eq_some_iff.1 hfind
  refine h.registry (name, id) ?_
  rw [hentries]
  exact List.mem_append_right _ List.mem_cons_self

/-- What is registered is a variable. -/
lemma Referential.isSome_of_find? (h : g.Referential) {name : String}
    (hfind : g.find? name = some id) : (g.declared? id).isSome := by
  obtain ⟨v, hv, -⟩ := h.find? hfind
  rw [hv, Option.isSome_some]

/-- A variable is an operand. -/
lemma isSome_operand? (h : (g.declared? id).isSome) : (g.operand? id).isSome := by
  obtain ⟨v, hv⟩ := Option.isSome_iff_exists.1 h
  rw [operand?_of_declared? hv, Option.isSome_some]

/-- Variables stay variables. -/
lemma Grows.declared?_isSome (h : g.Grows g') (hid : (g.declared? id).isSome) :
    (g'.declared? id).isSome := by
  obtain ⟨v, hv⟩ := Option.isSome_iff_exists.1 hid
  rw [h.declared? hv, Option.isSome_some]

/-! ## Answers to requests -/

/-- The answer to a request for a variable, after quiet changes: what is found under its name, or a new
variable. Only a uniform is made anew under a name that is taken, and a new varying joins the varyings. -/
inductive Answered (g : Graph) (v : Variable) : NodeId × Graph → Prop where
  | found {g' : Graph} {id : NodeId} (quiet : Quiet g g') (find : g.find? v.name = some id) :
    Answered g v (id, g')
  | made {g' : Graph} (quiet : Quiet g g') (free : v.cls ≠ .uniform → g.find? v.name = none) :
    Answered g v (g'.insertVariable v)
  | joined {g' : Graph} (quiet : Quiet g g') (free : g.find? v.name = none)
      (varying : v.cls = .varying) :
    Answered g v ((g'.insertVariable v).1,
      (g'.insertVariable v).2.addVarying v.name (g'.insertVariable v).1)

/-- A quiet change keeps all names. -/
lemma Quiet.find? (h : Quiet g g') (name : String) : g'.find? name = g.find? name := by
  rw [Graph.find?, h.registry, Graph.find?]

/-- A request for a uniform, with or without a length. -/
lemma answered_uniform (g : Graph) (type name : String) (size : Option Nat) :
    g.Answered { cls := .uniform, type, name, size } (g.uniform type name size) := by
  have hnoted := g.quiet_noteIf name.isEmpty .unnamedUniform
  unfold Graph.uniform
  generalize g.noteIf name.isEmpty .unnamedUniform = g' at hnoted
  cases hfind : g'.find? name with
  | none =>
    simp only [hfind]
    exact .made hnoted (by simp)
  | some existing =>
    have hchecked := hnoted.trans (g'.quiet_checkType existing name type)
    simp only [hfind]
    split
    · exact .found hchecked ((hnoted.find? name).symm.trans hfind)
    · exact .made hchecked (by simp)

/-- A request for a sampler, which is not compared with what is found. -/
lemma answered_sampler (g : Graph) (type name : String) :
    g.Answered { cls := .sampler, type, name } (g.sampler type name) := by
  have hnoted := g.quiet_noteIf name.isEmpty (.unnamedSampler type)
  unfold Graph.sampler
  generalize g.noteIf name.isEmpty (.unnamedSampler type) = g' at hnoted
  cases hfind : g'.find? name with
  | none =>
    simp only [hfind]
    exact .made hnoted fun _ => (hnoted.find? name).symm.trans hfind
  | some existing =>
    simp only [hfind]
    exact .found hnoted ((hnoted.find? name).symm.trans hfind)

/-- A request for a vertex attribute. -/
lemma answered_vertexAttribute (g : Graph) (type name : String) :
    g.Answered { cls := .attribute, type, name } (g.vertexAttribute type name) := by
  have hnoted := g.quiet_noteIf (g.stage = .fragment) (.attributeInFragment name)
  unfold Graph.vertexAttribute
  generalize g.noteIf (g.stage = .fragment) (.attributeInFragment name) = g' at hnoted
  cases hfind : g'.find? name with
  | none =>
    simp only [hfind]
    exact .made hnoted fun _ => (hnoted.find? name).symm.trans hfind
  | some existing =>
    simp only [hfind]
    exact .found (hnoted.trans (g'.quiet_checkType existing name type))
      ((hnoted.find? name).symm.trans hfind)

/-- A request for a constant. -/
lemma answered_constant (g : Graph) (type name value : String) :
    g.Answered { cls := .constant, type, name, value := some value }
      (g.constant type name value) := by
  unfold Graph.constant
  cases hfind : g.find? name with
  | none =>
    have hset : (g.size, (g.insertVariable { cls := .constant, type, name }).2.setValue g.size value) =
        g.insertVariable { cls := .constant, type, name, value := some value } :=
      congrArg (Prod.mk g.size) (g.setValue_insertVariable _ value)
    have hmade : g.Answered _
        (g.insertVariable { cls := .constant, type, name, value := some value }) :=
      .made (.refl g) fun _ => hfind
    rw [← hset] at hmade
    exact hmade
  | some existing => exact .found (g.quiet_checkType existing name type) hfind

/-- A request for a varying. -/
lemma answered_varying (g : Graph) (type name : String) :
    g.Answered { cls := .varying, type, name } (g.varying type name) := by
  unfold Graph.varying
  cases hfind : g.find? name with
  | none =>
    exact .joined (g.quiet_noteIf (g.stage = .vertex && !g.customFragment)
      (.undeclaredVarying name type)) hfind rfl
  | some existing =>
    have hnoted := g.quiet_noteIf (!g.varyings.any (·.1 == name)) (.notAVarying name)
    exact .found (hnoted.trans (quiet_checkType _ existing name type)) hfind

/-- The answer to a request for a node of a type that a catalogue registers: the problem of its
constructor, the answer to a request for a variable, or a new node of another kind. -/
inductive CreateAnswered (g : Graph) (made : Except Diagnostic NodeKind) :
    Except Diagnostic NodeId × Graph → Prop where
  | refused {g' : Graph} {d : Diagnostic} (error : made = .error d) (quiet : Quiet g g') :
    CreateAnswered g made (.error d, g')
  | answered {v : Variable} {answer : NodeId × Graph} (var : made = .ok (.var v))
    (answered : g.Answered v answer) : CreateAnswered g made (.ok answer.1, answer.2)
  | inserted {g' : Graph} {kind : NodeKind} (other : made = .ok kind) (none : kind.declared? = none)
    (quiet : Quiet g g') : CreateAnswered g made (.ok (g'.insert kind).1, (g'.insert kind).2)

/-- A request for a node of a type that a catalogue registers. -/
lemma createAnswered_createNode (g : Graph) (catalogue : Catalogue) (nodeType : String)
    (args : List NodeArg) :
    g.CreateAnswered (catalogue.create nodeType args) (g.createNode catalogue nodeType args) := by
  have hnoted := g.quiet_noteIf (!catalogue.contains nodeType) (.unknownNodeType nodeType)
  unfold Graph.createNode
  generalize g.noteIf (!catalogue.contains nodeType) (.unknownNodeType nodeType) = g' at hnoted
  cases hcreate : catalogue.create nodeType args with
  | error d => exact .refused rfl hnoted
  | ok kind =>
    cases kind with
    | var v =>
      cases hfind : g'.find? v.name with
      | some existing =>
        simp only [hfind]
        exact .answered rfl (.found (hnoted.trans (g'.quiet_checkType existing v.name v.type))
          ((hnoted.find? v.name).symm.trans hfind))
      | none =>
        have hfree : g.find? v.name = none := (hnoted.find? v.name).symm.trans hfind
        simp only [hfind]
        split
        next hcls => exact .answered rfl (.joined hnoted hfree hcls)
        next => exact .answered rfl (.made hnoted fun _ => hfree)
    | _ => exact .inserted rfl rfl hnoted

/-- A new variable is an operand of a graph that refers to nothing missing. -/
lemma Referential.madeVariable (h : g.Referential) (v : Variable) :
    (g.insertVariable v).2.Referential ∧ g.Builds (g.insertVariable v).2 ∧
      ((g.insertVariable v).2.operand? (g.insertVariable v).1).isSome :=
  ⟨h.insertVariable v, g.builds_insertVariable v,
    isSome_operand? (declared?_insertVariable g v ▸ rfl)⟩

/-- What answers a request is an operand. -/
lemma Referential.answered (h : g.Referential) {v : Variable} {answer : NodeId × Graph}
    (ha : g.Answered v answer) :
    answer.2.Referential ∧ g.Builds answer.2 ∧ (answer.2.operand? answer.1).isSome := by
  cases ha with
  | found hquiet hfind =>
    refine ⟨hquiet.referential h, hquiet.builds, isSome_operand? ?_⟩
    exact hquiet.builds.grows.declared?_isSome (h.isSome_of_find? hfind)
  | made hquiet =>
    obtain ⟨hlast, hbuilds, hoperand⟩ := (hquiet.referential h).madeVariable v
    exact ⟨hlast, hquiet.builds.trans hbuilds, hoperand⟩
  | joined hquiet hfree hcls =>
    obtain ⟨hlast, hbuilds, hoperand⟩ := (hquiet.referential h).madeVariable v
    have hall := hquiet.builds.trans hbuilds
    exact ⟨hlast.addVarying (declared?_insertVariable _ v) hcls, ⟨hall.nodes, hall.fault⟩, hoperand⟩

/-! ## Operations -/

/-- What an operation leaves: it is wired as it was asked for, and its targets are linked to it. -/
structure Operated (g g' : Graph) (kind : NodeKind) (inputs : InputSet) (outputs : Outputs) :
    Prop where
  referential : g'.Referential
  builds : Builds g g'
  node : g'.node? g.size = some { ({ id := g.size, kind : Node }.withInputs inputs) with outputs }
  linked : ∀ target ∈ outputs.targets, ∃ m, g'.node? target = some m ∧ g.size ∈ m.inputNodes

/-- A new operation links its targets to itself, and keeps all other nodes as they are. -/
lemma builds_operation {inputs : InputSet} {outputs : Outputs} (hkind : kind.isOperation = true)
    (houtputs : ∀ target ∈ outputs.targets, (g.operand? target).isSome) :
    Builds g (Builder.operation kind inputs outputs g).2 := by
  have hnew : g.size ∉ outputs.targets :=
    fun hmem => absurd (lt_size_of_operand? (houtputs _ hmem)) (Nat.lt_irrefl _)
  obtain ⟨-, hframed, hnode⟩ := @operation_effect g kind inputs outputs hkind hnew
  refine ⟨fun id n hn => ⟨List.replicate (outputs.targets.count id) (none, .node g.size), ?_,
    fun hoperand => ?_⟩, hframed.fault⟩
  · have hid : id ≠ g.size := by
      rintro rfl
      exact absurd (Array.getElem?_eq_some_iff.1 hn).1 (Nat.lt_irrefl _)
    rw [hnode, if_neg hid, hn, Option.map_some, Node.linked]
  · have hnot : id ∉ outputs.targets := by
      intro hmem
      have hsome := houtputs id hmem
      rw [operand?, hn, Option.bind_some, hoperand] at hsome
      cases hsome
    rw [List.count_eq_zero_of_not_mem hnot, List.replicate_zero]

/-- An operation that is wired to nodes, and writes operands. -/
lemma Referential.operation (h : g.Referential) {inputs : InputSet} {outputs : Outputs}
    (hkind : kind.isOperation = true) (hinputs : ∀ input ∈ inputs.nodes, input < g.size)
    (houtputs : ∀ target ∈ outputs.targets, (g.operand? target).isSome) :
    Operated g (Builder.operation kind inputs outputs g).2 kind inputs outputs := by
  have hnew : g.size ∉ outputs.targets :=
    fun hmem => absurd (lt_size_of_operand? (houtputs _ hmem)) (Nat.lt_irrefl _)
  obtain ⟨-, hframed, hnode⟩ := @operation_effect g kind inputs outputs hkind hnew
  have hbuilds := @builds_operation g kind inputs outputs hkind houtputs
  generalize (Builder.operation kind inputs outputs g).2 = g' at hframed hnode hbuilds
  have hself : g'.node? g.size = some { ({ id := g.size, kind : Node }.withInputs inputs) with
      outputs } := by
    rw [hnode, if_pos rfl]
  have hsize : g.size < g'.size := (Array.getElem?_eq_some_iff.1 hself).1
  -- a node is the new one, or an old one that may be linked to the new one
  have hcases : ∀ id n, g'.node? id = some n →
      n = { ({ id := g.size, kind : Node }.withInputs inputs) with outputs } ∨
        ∃ m, g.node? id = some m ∧ n = Node.linked g.size (outputs.targets.count id) m := by
    intro id n hn
    rw [hnode] at hn
    split at hn
    · exact .inl (Option.some.inj hn).symm
    · obtain ⟨m, hm, rfl⟩ := Option.map_eq_some_iff.1 hn
      exact .inr ⟨m, hm, rfl⟩
  refine ⟨⟨fun id n hn input hinput => ?_, fun id n hn target htarget => ?_, fun e he => ?_,
    fun e he => ?_⟩, hbuilds, hself, fun target htarget => ?_⟩
  · rcases hcases id n hn with rfl | ⟨m, hm, rfl⟩
    · have hwired : input ∈ inputs.nodes := by
        rw [← Node.inputNodes_withInputs { id := g.size, kind } inputs rfl]
        exact hinput
      exact (hinputs input hwired).trans hsize
    · rcases Node.mem_inputNodes_linked_iff.1 hinput with hinput | ⟨rfl, -⟩
      · exact (h.inputs id m hm input hinput).trans hsize
      · exact hsize
  · rcases hcases id n hn with rfl | ⟨m, hm, rfl⟩
    · exact (lt_size_of_operand? (houtputs target htarget)).trans hsize
    · exact (h.outputs id m hm target htarget).trans hsize
  · exact (h.registry e (hframed.registry ▸ he)).imp
      fun v hv => ⟨hbuilds.grows.declared? hv.1, hv.2⟩
  · exact (h.varyings e (hframed.varyings ▸ he)).imp
      fun v hv => ⟨hbuilds.grows.declared? hv.1, hv.2⟩
  · have hlt := lt_size_of_operand? (houtputs target htarget)
    obtain ⟨m, hm⟩ : ∃ m, g.node? target = some m := ⟨_, Array.getElem?_eq_getElem hlt⟩
    refine ⟨Node.linked g.size (outputs.targets.count target) m, ?_,
      Node.mem_inputNodes_linked_iff.2 (.inr ⟨rfl, (List.count_pos_iff.2 htarget).ne'⟩)⟩
    rw [hnode, if_neg hlt.ne, hm, Option.map_some]

end Graph

/-! ## Facts that last -/

/-- The operation copies operands, or runs code on them; it has all that it needs for that, and it
writes operands. -/
structure Node.Ready (g : Graph) (n : Node) : Prop where
  kind : n.kind = .setFromNode ∨ ∃ code, n.kind = .inlineCode code
  complete : n.Complete
  inputs : ∀ e ∈ n.inputs, ∃ input, e.2 = .node input ∧ (g.operand? input).isSome
  outputs : ∀ target ∈ n.outputs.targets, (g.operand? target).isSome

/-- Such an operation is no operand. -/
lemma Node.Ready.operand? {n : Node} (h : n.Ready g) : n.kind.operand? = none := by
  rcases h.kind with hkind | ⟨code, hkind⟩ <;> rw [hkind] <;> rfl

/-- A fact about a node that lasts while building goes on. -/
inductive BuildFact where
  /-- There is a node of the number. -/
  | node (id : NodeId)
  /-- The node is an operand. -/
  | operand (id : NodeId)
  /-- An operation that assigns to the node is one of its inputs. -/
  | fed (id : NodeId)

namespace BuildFact

/-- The fact holds of the graph. -/
def Holds (g : Graph) : BuildFact → Prop
  | node id => id < g.size
  | operand id => (g.operand? id).isSome
  | fed id => ∃ j n m, g.node? j = some n ∧ n.Ready g ∧ n.Assigns id ∧ g.node? id = some m ∧
      j ∈ m.inputNodes

/-- The nodes are operands. -/
def operands (ids : List NodeId) : List BuildFact := ids.map operand

@[simp] lemma operands_nil : operands [] = [] := rfl

@[simp] lemma operands_cons (id : NodeId) (ids : List NodeId) :
    operands (id :: ids) = operand id :: operands ids := rfl

@[simp] lemma operands_append (ids ids' : List NodeId) :
    operands (ids ++ ids') = operands ids ++ operands ids' := List.map_append

@[simp] lemma mem_operands {ids : List NodeId} : operand id ∈ operands ids ↔ id ∈ ids := by
  simp [operands]

end BuildFact

namespace Graph

/-- Operands stay operands. -/
lemma Builds.operand? (h : Builds g g') (hid : (g.operand? id).isSome) :
    (g'.operand? id).isSome := by
  rwa [h.grows.operand? hid]

/-- Facts last. -/
lemma Builds.holds (h : Builds g g') {fact : BuildFact} (hfact : fact.Holds g) : fact.Holds g' := by
  cases fact with
  | node id => exact hfact.trans_le h.grows.size_le
  | operand id => exact h.operand? hfact
  | fed id =>
    obtain ⟨j, n, m, hn, hready, hassigns, hm, hj⟩ := hfact
    obtain ⟨more, hmore, hnone⟩ := h.nodes j n hn
    obtain ⟨more', hmore', -⟩ := h.nodes id m hm
    rw [hnone hready.operand?, List.append_nil] at hmore
    refine ⟨j, n, _, hmore, ⟨hready.kind, hready.complete, fun e he => ?_, fun target htarget => ?_⟩,
      hassigns, hmore', ?_⟩
    · obtain ⟨input, hsource, hinput⟩ := hready.inputs e he
      exact ⟨input, hsource, h.operand? hinput⟩
    · exact h.operand? (hready.outputs target htarget)
    · unfold Node.inputNodes at hj ⊢
      rw [List.filterMap_append]
      exact List.mem_append_left _ hj

end Graph

/-! ## Builders -/

/-- In every graph that refers to nothing missing and where the needs hold, the builder builds on the
graph, and what it gives holds afterwards. -/
def Keeps (needs : List BuildFact) (b : Builder α) (gives : α → List BuildFact) : Prop :=
  ∀ g : Graph, g.Referential → (∀ fact ∈ needs, fact.Holds g) →
    (b g).2.Referential ∧ g.Builds (b g).2 ∧ ∀ fact ∈ gives (b g).1, fact.Holds (b g).2

namespace Keeps

open BuildFact

variable {needs : List BuildFact} {b : Builder α} {f : α → Builder β}
  {mid : α → List BuildFact} {gives : β → List BuildFact} {name type value : String}

/-- An answer without any request. -/
lemma pure {a : β} (hgives : gives a ⊆ needs) : Keeps needs (Pure.pure a : Builder β) gives :=
  fun g hg hneeds => ⟨hg, .refl g, fun fact hfact => hneeds fact (hgives hfact)⟩

/-- An answer of nodes. -/
lemma pureNodes {ids : List NodeId} (h : ∀ id ∈ ids, .operand id ∈ needs ∨ .node id ∈ needs) :
    Keeps needs (Pure.pure ids : Builder (List NodeId)) fun ids => ids.map .node := by
  refine fun g hg hneeds => ⟨hg, .refl g, fun fact hfact => ?_⟩
  obtain ⟨id, hid, rfl⟩ := List.mem_map.1 hfact
  rcases h id hid with hoperand | hnode
  · exact Graph.lt_size_of_operand? (hneeds _ hoperand)
  · exact hneeds _ hnode

/-- One builder after another: what the first one gives is there for the second one, with all that
was there before. -/
lemma bind (hb : Keeps needs b mid) (hf : ∀ a, Keeps (mid a ++ needs) (f a) gives) :
    Keeps needs (b >>= f) gives := by
  intro g hg hneeds
  obtain ⟨hmid, hbuilds, hgiven⟩ := hb g hg hneeds
  obtain ⟨hlast, hbuilds', hgives⟩ := hf (b g).1 (b g).2 hmid fun fact hfact => by
    rcases List.mem_append.1 hfact with hfact | hfact
    · exact hgiven fact hfact
    · exact hbuilds.holds (hneeds fact hfact)
  exact ⟨hlast, hbuilds.trans hbuilds', hgives⟩

/-- What a builder may rely on lasts. -/
lemma frame {extra : List BuildFact} (hb : Keeps needs b mid) (hextra : extra ⊆ needs) :
    Keeps needs b fun a => extra ++ mid a := by
  intro g hg hneeds
  obtain ⟨hlast, hbuilds, hgiven⟩ := hb g hg hneeds
  refine ⟨hlast, hbuilds, fun fact hfact => ?_⟩
  rcases List.mem_append.1 hfact with hfact | hfact
  · exact hbuilds.holds (hneeds fact (hextra hfact))
  · exact hgiven fact hfact

/-! ### Variables -/

/-- A builder that asks for a variable. -/
lemma of_answered {b : Builder NodeId} {v : Variable} (hb : ∀ g : Graph, g.Answered v (b g)) :
    Keeps needs b fun id => [.operand id] := by
  intro g hg _
  obtain ⟨hlast, hbuilds, hoperand⟩ := hg.answered (hb g)
  exact ⟨hlast, hbuilds, List.forall_mem_singleton.2 hoperand⟩

/-- A new local. -/
lemma temporary : Keeps needs (Builder.temporary type) fun id => [.operand id] := by
  intro g hg _
  obtain ⟨hlast, hbuilds, hoperand⟩ := hg.madeVariable _
  exact ⟨hlast, hbuilds, List.forall_mem_singleton.2 hoperand⟩

/-- A new local under a wanted name. -/
lemma localNamed : Keeps needs (Builder.localNamed type name) fun id => [.operand id] := by
  intro g hg _
  obtain ⟨hlast, hbuilds, hoperand⟩ := hg.madeVariable _
  exact ⟨hlast, hbuilds, List.forall_mem_singleton.2 hoperand⟩

/-- A uniform, or whatever has its name and type. -/
lemma uniform : Keeps needs (Builder.uniform type name) fun id => [.operand id] :=
  of_answered fun g => g.answered_uniform type name none

lemma uniformArray (size : Nat) :
    Keeps needs (Builder.uniformArray type name size) fun id => [.operand id] :=
  of_answered fun g => g.answered_uniform type name (some size)

/-- A vertex attribute, or whatever has its name. -/
lemma vertexAttribute : Keeps needs (Builder.vertexAttribute type name) fun id => [.operand id] :=
  of_answered fun g => g.answered_vertexAttribute type name

/-- A varying, or whatever has its name. -/
lemma varying : Keeps needs (Builder.varying type name) fun id => [.operand id] :=
  of_answered fun g => g.answered_varying type name

/-- A constant, or whatever has its name. -/
lemma constant : Keeps needs (Builder.constant type name value) fun id => [.operand id] :=
  of_answered fun g => g.answered_constant type name value

/-- What is registered under a name, or else what a builder makes. -/
lemma orElse {make : Builder NodeId} (h : Keeps needs make fun id => [.operand id]) :
    Keeps needs (Builder.orElse name make) fun id => [.operand id] := by
  intro g hg hneeds
  rw [Builder.orElse_eq]
  cases hfind : g.find? name with
  | none => exact h g hg hneeds
  | some existing =>
    exact ⟨hg, .refl g, List.forall_mem_singleton.2 (Graph.isSome_operand? (hg.isSome_of_find? hfind))⟩

/-! ### Other nodes -/

/-- A built-in output. -/
lemma output (o : BuiltinOutput) :
    Keeps needs (Builder.node (.output o)) fun id => [.operand id] := by
  intro g hg _
  have hnode := Graph.node?_insert g (.output o) g.size
  rw [if_pos rfl] at hnode
  refine ⟨hg.insert _, g.builds_insert _, List.forall_mem_singleton.2 ?_⟩
  change (((g.insert (.output o)).2.node? g.size).bind _).isSome = true
  rw [hnode]
  rfl

/-- The node that names the program. -/
lemma programName : Keeps needs (Builder.programName name) fun id => [.node id] :=
  fun g hg _ => ⟨hg.insert _, g.builds_insert _, List.forall_mem_singleton.2 (g.size_lt_size_insert _)⟩

/-- An operation that is wired to operands, and writes operands. -/
lemma operation {kind : NodeKind} {inputs : InputSet} {outputs : Outputs}
    (hkind : kind.isOperation = true) (hinputs : operands inputs.nodes ⊆ needs)
    (houtputs : operands outputs.targets ⊆ needs) :
    Keeps needs (Builder.operation kind inputs outputs) fun _ => [] := by
  intro g hg hneeds
  have hread : ∀ input ∈ inputs.nodes, input < g.size := fun input hinput =>
    Graph.lt_size_of_operand? (hneeds _ (hinputs (mem_operands.2 hinput)))
  have hwritten : ∀ target ∈ outputs.targets, (g.operand? target).isSome := fun target htarget =>
    hneeds _ (houtputs (mem_operands.2 htarget))
  have hoperated := hg.operation hkind hread hwritten
  exact ⟨hoperated.referential, hoperated.builds, by simp⟩

/-- An operation on pins that writes one operand. -/
lemma pins {kind : NodeKind} {pins : Pins} {pin : String} {target : NodeId}
    (hkind : kind.isOperation = true) (hpins : operands (pins.map (·.2)) ⊆ needs)
    (htarget : .operand target ∈ needs) :
    Keeps needs (Builder.operation kind pins.inputs (.named [(pin, target)])) fun _ => [] := by
  refine .operation hkind (by rwa [Pins.nodes_inputs]) ?_
  exact List.cons_subset.2 ⟨htarget, List.nil_subset _⟩

/-- An operation that copies operands or runs code on them feeds what it writes. -/
lemma feeds {kind : NodeKind} {inputs : InputSet} {outputs : Outputs} {reads : List NodeId}
    (hkind : kind = .setFromNode ∨ ∃ code, kind = .inlineCode code)
    (hwiring : Serves.Wiring [] kind inputs outputs reads) (hreads : operands reads ⊆ needs)
    (houtputs : operands outputs.targets ⊆ needs) (hid : id ∈ outputs.targets) :
    Keeps needs (Builder.operation kind inputs outputs) fun _ => [.fed id] := by
  intro g hg hneeds
  have hread : ∀ input ∈ reads, (g.operand? input).isSome :=
    fun input hinput => hneeds _ (hreads (mem_operands.2 hinput))
  have hwritten : ∀ target ∈ outputs.targets, (g.operand? target).isSome :=
    fun target htarget => hneeds _ (houtputs (mem_operands.2 htarget))
  have hnodes : ∀ input ∈ inputs.nodes, input < g.size := by
    intro input hinput
    rw [← Node.inputNodes_withInputs { id := g.size, kind } inputs rfl] at hinput
    obtain ⟨e, he, hnode⟩ := List.mem_filterMap.1 hinput
    obtain ⟨source, hsource, heq⟩ := hwiring.sources g.size e he
    rw [heq] at hnode
    cases hnode
    exact Graph.lt_size_of_operand? (hread _ hsource)
  have hoperated := hg.operation hwiring.operation hnodes hwritten
  generalize (Builder.operation kind inputs outputs g).2 = g' at hoperated
  refine ⟨hoperated.referential, hoperated.builds, List.forall_mem_singleton.2 ?_⟩
  obtain ⟨m, hm, hlinked⟩ := hoperated.linked id hid
  refine ⟨g.size, _, m, hoperated.node, ⟨?_, hwiring.complete g.size, fun e he => ?_,
    fun target htarget => hoperated.builds.operand? (hwritten target htarget)⟩, ?_, hm, hlinked⟩
  · rw [Node.kind_withInputs]
    exact hkind
  · obtain ⟨source, hsource, heq⟩ := hwiring.sources g.size e he
    exact ⟨source, heq, hoperated.builds.operand? (hread source hsource)⟩
  · exact (hwiring.assigned id hid).resolve_right List.not_mem_nil g.size

end Keeps

end SceneShading
