import Mathlib.Tactic
import SceneShading.Proofs.Graph.Sound

/-!
# The flow of values through a graph

The operations of a graph read variables and write variables. What a variable holds when it is read
depends on the order of the statements, and that order is found by a walk along inputs. It is a good
one if operations are added in it: every operation that writes a variable is older than those that
read it (`Graph.Flow.ordered`), and every variable that needs a value is written by some operation
(`Graph.Flow.written`). The only operations with an input that they write are the lights, and they
hand it to their function as an out-parameter.

While a graph grows, some variables are *open*: they were declared to be written, and nothing has read
them so far. Operations write open variables and built-in outputs, and they read variables that are
not open any more. A variable can be closed when it has a value.
-/

namespace SceneShading

/-! ## Operations -/

/-- What a node computes, and between which nodes. -/
structure Operation where
  kind : NodeKind
  inputs : List (Option String × Source)
  writes : List NodeId

namespace Operation

/-- The nodes among the inputs. -/
def reads (o : Operation) : List NodeId := o.inputs.filterMap (·.2.node?)

/-- The operation takes the variable as an out-parameter only. -/
def Hands (o : Operation) (id : NodeId) : Prop :=
  ∀ e ∈ o.inputs, e.2 = .node id → ∃ pin ∈ o.kind.outPins, e.1 = some pin

end Operation

/-- The operation that a node is, unless it is a variable, an output or a definition. -/
def Node.operation? (n : Node) : Option Operation :=
  if n.kind.isOperation then some ⟨n.kind, n.inputs, n.outputs.targets⟩ else none

namespace Variable

/-- Operations may write the variable: it is a local, or a varying that the stage has to write. -/
def MayOpen (roots : List NodeId) (id : NodeId) (v : Variable) : Prop :=
  v.cls = .temporary ∨ (v.cls = .varying ∧ id ∈ roots)

/-- The variable has no value unless an operation writes it: it is a local without an initial value,
or a varying that the stage has to write. -/
def IsDue (roots : List NodeId) (id : NodeId) (v : Variable) : Prop :=
  (v.cls = .temporary ∧ v.value = none) ∨ (v.cls = .varying ∧ id ∈ roots)

end Variable

namespace Graph

variable {g g' : Graph} {roots opened opened' : List NodeId} {i j id : NodeId} {kind : NodeKind}
  {o : Operation}

/-- The operation of a number. -/
def operation? (g : Graph) (id : NodeId) : Option Operation := (g.node? id).bind Node.operation?

/-- The operation reads the node. -/
def Reads (g : Graph) (i id : NodeId) : Prop := ∃ o, g.operation? i = some o ∧ id ∈ o.reads

/-- The operation writes the node. -/
def Writes (g : Graph) (i id : NodeId) : Prop := ∃ o, g.operation? i = some o ∧ id ∈ o.writes

/-- The operation takes the node as an out-parameter only. -/
def Hands (g : Graph) (i id : NodeId) : Prop := ∃ o, g.operation? i = some o ∧ o.Hands id

/-- The node of an operation. -/
lemma operation?_eq_some_iff : g.operation? i = some o ↔
    ∃ n, g.node? i = some n ∧ n.kind.isOperation = true ∧
      o = ⟨n.kind, n.inputs, n.outputs.targets⟩ := by
  rw [operation?, Option.bind_eq_some_iff]
  refine exists_congr fun n => and_congr_right fun _ => ?_
  rw [Node.operation?]
  split
  next h =>
    rw [Option.some.injEq]
    exact ⟨fun heq => ⟨h, heq.symm⟩, fun heq => heq.2.symm⟩
  next h => simp [h]

/-- Operations have numbers below the number of nodes. -/
lemma lt_size_of_operation? (h : g.operation? i = some o) : i < g.size := by
  obtain ⟨n, hn, -⟩ := operation?_eq_some_iff.1 h
  exact (Array.getElem?_eq_some_iff.1 hn).1

/-- There is no operation of the next number. -/
lemma operation?_size (g : Graph) : g.operation? g.size = none := by
  cases h : g.operation? g.size with
  | none => rfl
  | some o => exact absurd (lt_size_of_operation? h) (lt_irrefl _)

section SameOperations

variable (h : ∀ j, g'.operation? j = g.operation? j)

include h

/-- The same operations read the same nodes. -/
lemma reads_congr : g'.Reads i id ↔ g.Reads i id := by
  rw [Reads, h, Reads]

/-- The same operations write the same nodes. -/
lemma writes_congr : g'.Writes i id ↔ g.Writes i id := by
  rw [Writes, h, Writes]

/-- The same operations take the same nodes as out-parameters. -/
lemma hands_congr : g'.Hands i id ↔ g.Hands i id := by
  rw [Hands, h, Hands]

end SameOperations

/-- A new node that is no operation changes no operations. -/
lemma operation?_of_node?
    (hnode : ∀ j, g'.node? j = if j = g.size then some { id := g.size, kind } else g.node? j)
    (hkind : kind.isOperation = false) (j : NodeId) : g'.operation? j = g.operation? j := by
  rw [operation?, hnode]
  split
  next hj =>
    rw [hj, operation?_size, Option.bind_some, Node.operation?, hkind]
    rfl
  next => rfl

namespace Sound

/-- Operations of a sound graph read variables. -/
lemma declared?_of_reads (h : Sound roots g) (hreads : g.Reads i id) :
    (g.declared? id).isSome := by
  obtain ⟨o, ho, hid⟩ := hreads
  obtain ⟨n, hn, hkind, rfl⟩ := operation?_eq_some_iff.1 ho
  obtain ⟨e, he, hnode⟩ := List.mem_filterMap.1 hid
  obtain ⟨source, heq, hdeclared⟩ := ((h.settled i n hn).wiring hkind).inputs e he
  rw [heq] at hnode
  cases hnode
  exact hdeclared

/-- Operations of a sound graph write what may be written. -/
lemma writable_of_writes (h : Sound roots g) (hwrites : g.Writes i id) : g.Writable roots id := by
  obtain ⟨o, ho, hid⟩ := hwrites
  obtain ⟨n, hn, hkind, rfl⟩ := operation?_eq_some_iff.1 ho
  exact ((h.settled i n hn).wiring hkind).outputs id hid

/-- Operations of a sound graph read nodes that exist. -/
lemma lt_size_of_reads (h : Sound roots g) (hreads : g.Reads i id) : id < g.size := by
  obtain ⟨v, hv⟩ := Option.isSome_iff_exists.1 (h.declared?_of_reads hreads)
  exact lt_size_of_declared? hv

/-- Operations of a sound graph write nodes that exist. -/
lemma lt_size_of_writes (h : Sound roots g) (hwrites : g.Writes i id) : id < g.size :=
  lt_size_of_operand? (h.writable_of_writes hwrites).1

end Sound

/-! ## Flow -/

/-- Values flow from the operations that write a variable to those that read it. The nodes that are
no operations have the operations as inputs that write them. -/
structure Flow (roots opened : List NodeId) (g : Graph) : Prop where
  nodup : opened.Nodup
  linked : ∀ id n, g.node? id = some n → n.kind.isOperation = false →
    ∀ i, i ∈ n.inputNodes ↔ g.Writes i id
  declared : ∀ id ∈ opened, ∃ v, g.declared? id = some v ∧ v.MayOpen roots id
  unread : ∀ id ∈ opened, ∀ i, ¬g.Reads i id
  written : ∀ id v, g.declared? id = some v → v.IsDue roots id → id ∈ opened ∨ ∃ i, g.Writes i id
  ordered : ∀ i j id, g.Reads i id → g.Writes j id →
    j < i ∨ (j = i ∧ g.Hands i id)
  varying : ∀ id v, g.declared? id = some v → v.cls = .varying → (v.name, id) ∈ g.varyings

/-- The graph without nodes has a flow. -/
lemma flow_ofStage (roots : List NodeId) (stage : Stage) : Flow roots [] (ofStage stage) := by
  have hnode : ∀ id, (ofStage stage).node? id = none := fun id => by simp [ofStage, node?]
  have hoperation : ∀ i, (ofStage stage).operation? i = none := fun i => by
    rw [operation?, hnode, Option.bind_none]
  have hdeclared : ∀ id, (ofStage stage).declared? id = none := fun id => by
    rw [declared?, hnode, Option.bind_none]
  refine ⟨List.nodup_nil, fun id n hn => ?_, by simp, by simp, fun id v hv => ?_,
    fun i j id hreads => ?_, fun id v hv => ?_⟩
  · rw [hnode] at hn
    cases hn
  · rw [hdeclared] at hv
    cases hv
  · obtain ⟨o, ho, -⟩ := hreads
    rw [hoperation] at ho
    cases ho
  · rw [hdeclared] at hv
    cases hv

namespace Flow

/-- Open variables exist. -/
lemma lt_size (h : Flow roots opened g) (hid : id ∈ opened) : id < g.size := by
  obtain ⟨v, hv, -⟩ := h.declared id hid
  exact lt_size_of_declared? hv

/-- The order in which variables were opened does not matter. -/
lemma perm (h : Flow roots opened g) (hperm : opened.Perm opened') : Flow roots opened' g :=
  ⟨hperm.nodup_iff.1 h.nodup, h.linked, fun id hid => h.declared id (hperm.mem_iff.2 hid),
    fun id hid => h.unread id (hperm.mem_iff.2 hid),
    fun id v hv hdue => (h.written id v hv hdue).imp_left hperm.mem_iff.1, h.ordered, h.varying⟩

/-- A variable can be closed if it has a value. -/
lemma close (h : Flow roots (id :: opened) g)
    (hvalue : ∀ v, g.declared? id = some v → v.IsDue roots id → ∃ i, g.Writes i id) :
    Flow roots opened g := by
  refine ⟨(List.nodup_cons.1 h.nodup).2, h.linked,
    fun other hother => h.declared other (List.mem_cons_of_mem _ hother),
    fun other hother => h.unread other (List.mem_cons_of_mem _ hother),
    fun other v hv hdue => ?_, h.ordered, h.varying⟩
  rcases h.written other v hv hdue with hopen | hwritten
  · rcases List.mem_cons.1 hopen with rfl | hopen
    · exact .inr (hvalue v hv hdue)
    · exact .inl hopen
  · exact .inr hwritten

/-- What an operation does not look at may change. -/
lemma congr (h : Flow roots opened g)
    (hnode : ∀ j, (g'.node? j).map (fun n => (n.kind, n.inputs, n.outputs)) =
      (g.node? j).map fun n => (n.kind, n.inputs, n.outputs))
    (hvaryings : g'.varyings = g.varyings) : Flow roots opened g' := by
  have hsame : ∀ j n, g'.node? j = some n → ∃ m, g.node? j = some m ∧ n.kind = m.kind ∧
      n.inputs = m.inputs ∧ n.outputs = m.outputs := by
    intro j n hn
    have heq := hnode j
    rw [hn, Option.map_some, eq_comm, Option.map_eq_some_iff] at heq
    obtain ⟨m, hm, heq⟩ := heq
    rw [Prod.mk.injEq, Prod.mk.injEq] at heq
    exact ⟨m, hm, heq.1.symm, heq.2.1.symm, heq.2.2.symm⟩
  have hkind : ∀ j, g'.kind? j = g.kind? j := by
    intro j
    have heq := congrArg (Option.map Prod.fst) (hnode j)
    rwa [Option.map_map, Option.map_map] at heq
  have hdeclared : ∀ j, g'.declared? j = g.declared? j := fun j => by
    rw [declared?_eq, declared?_eq, hkind]
  have hoperation : ∀ j, g'.operation? j = g.operation? j := by
    intro j
    let operationOf (c : NodeKind × List (Option String × Source) × Outputs) : Option Operation :=
      if c.1.isOperation then some ⟨c.1, c.2.1, c.2.2.targets⟩ else none
    have heq := congrArg (Option.bind · operationOf) (hnode j)
    rwa [Option.bind_map, Option.bind_map] at heq
  refine ⟨h.nodup, fun id n hn hnone i => ?_, fun id hid => ?_,
    fun id hid i hi => h.unread id hid i ((reads_congr hoperation).1 hi),
    fun id v hv hdue => ?_, fun i j id hi hj => ?_, fun id v hv hcls => ?_⟩
  · obtain ⟨m, hm, hkind, hinputs, -⟩ := hsame id n hn
    rw [writes_congr hoperation, Node.inputNodes, hinputs]
    exact h.linked id m hm (hkind ▸ hnone) i
  · rw [hdeclared]
    exact h.declared id hid
  · rw [hdeclared] at hv
    exact (h.written id v hv hdue).imp_right (Exists.imp fun i => (writes_congr hoperation).2)
  · rw [hands_congr hoperation]
    exact h.ordered i j id ((reads_congr hoperation).1 hi) ((writes_congr hoperation).1 hj)
  · rw [hdeclared] at hv
    rw [hvaryings]
    exact h.varying id v hv hcls

/-- A note changes no flow. -/
lemma noteIf (h : Flow roots opened g) (condition : Bool) (n : Notice) :
    Flow roots opened (g.noteIf condition n) :=
  h.congr (fun j => by rw [node?_noteIf]) (noteIf_framed g condition n).varyings

/-- A comment changes no flow. -/
lemma setComment (h : Flow roots opened g) (hid : id < g.size) (text : String) :
    Flow roots opened (g.setComment id text) := by
  refine h.congr (fun j => ?_) (modify_framed hid _).varyings
  have hnode : (g.setComment id text).node? j = _ := node?_modify hid _ j
  rw [hnode]
  split
  · rw [Option.map_map]
    rfl
  · rfl

/-- A node that is no operation keeps the flow. It may be opened if it is a variable that may be
written, and it has to be if it needs a value. -/
lemma insert (h : Flow roots opened g) (hsound : Sound roots g)
    (hnode : ∀ j, g'.node? j = if j = g.size then some { id := g.size, kind } else g.node? j)
    (hvaryings : g.varyings ⊆ g'.varyings) (hkind : kind.isOperation = false)
    (hnew : opened' = opened ∨ (opened' = g.size :: opened ∧
      ∃ v, kind = .var v ∧ v.MayOpen roots g.size))
    (hdue : ∀ v, kind = .var v → v.IsDue roots g.size → g.size ∈ opened')
    (hvarying : ∀ v, kind = .var v → v.cls = .varying → (v.name, g.size) ∈ g'.varyings) :
    Flow roots opened' g' := by
  have hkinds := kind?_of_node? hnode
  have hgrows : Grows g g' := .of_kind? hkinds
  have hoperation := operation?_of_node? hnode hkind
  have hvariable : ∀ v, kind.declared? = some v → kind = .var v := by
    intro v hv
    cases kind with
    | var w => exact congrArg NodeKind.var (Option.some_inj.1 hv)
    | _ => cases hv
  have hmem : ∀ id ∈ opened', id ∈ opened ∨ (id = g.size ∧
      ∃ v, kind = .var v ∧ v.MayOpen roots g.size) := by
    intro id hid
    rcases hnew with rfl | ⟨rfl, hopened⟩
    · exact .inl hid
    · exact (List.mem_cons.1 hid).elim (fun heq => .inr ⟨heq, hopened⟩) .inl
  have hsub : opened ⊆ opened' := by
    rcases hnew with rfl | ⟨rfl, -⟩
    · exact List.Subset.refl _
    · exact List.subset_cons_self _ _
  refine ⟨?_, fun id n hn hnone i => ?_, fun id hid => ?_, fun id hid i hi => ?_,
    fun id v hv hisDue => ?_, fun i j id hi hj => ?_, fun id v hv hcls => ?_⟩
  · rcases hnew with rfl | ⟨rfl, -⟩
    · exact h.nodup
    · exact List.nodup_cons.2 ⟨fun hmem => lt_irrefl _ (h.lt_size hmem), h.nodup⟩
  · rw [writes_congr hoperation]
    rw [hnode] at hn
    split at hn
    next hid =>
      -- nothing writes the new node
      cases hn
      subst hid
      exact iff_of_false List.not_mem_nil fun hi => lt_irrefl _ (hsound.lt_size_of_writes hi)
    next => exact h.linked id n hn hnone i
  · rcases hmem id hid with hid | ⟨rfl, v, rfl, hplace⟩
    · obtain ⟨v, hv, hplace⟩ := h.declared id hid
      exact ⟨v, hgrows.declared? hv, hplace⟩
    · exact ⟨v, (declared?_eq_some_iff_of_kind? hkinds).2 (.inl ⟨rfl, rfl⟩), hplace⟩
  · rw [reads_congr hoperation] at hi
    rcases hmem id hid with hid | ⟨rfl, -⟩
    · exact h.unread id hid i hi
    · exact lt_irrefl _ (hsound.lt_size_of_reads hi)
  · rcases (declared?_eq_some_iff_of_kind? hkinds).1 hv with ⟨rfl, hmade⟩ | hold
    · exact .inl (hdue v (hvariable v hmade) hisDue)
    · exact (h.written id v hold hisDue).imp (fun hmem => hsub hmem)
        (Exists.imp fun i => (writes_congr hoperation).2)
  · rw [hands_congr hoperation]
    exact h.ordered i j id ((reads_congr hoperation).1 hi) ((writes_congr hoperation).1 hj)
  · rcases (declared?_eq_some_iff_of_kind? hkinds).1 hv with ⟨rfl, hmade⟩ | hold
    · exact hvarying v (hvariable v hmade) hcls
    · exact hvaryings (h.varying id v hold hcls)

/-- The nodes that a new operation writes are older than it, and no operations. -/
lemma targets_of_writable {targets : List NodeId}
    (hwritable : ∀ t ∈ targets, Writable roots g t) :
    g.size ∉ targets ∧ ∀ t ∈ targets, ∀ n, g.node? t = some n → n.kind.isOperation = false :=
  ⟨fun hmem => lt_irrefl _ (lt_size_of_operand? (hwritable g.size hmem).1),
    fun t ht _ hn => isOperation_of_operand? (hwritable t ht).1 hn⟩

/-- The operations after one was added. -/
lemma operation?_operation (hkind : kind.isOperation = true) {inputs : InputSet}
    {outputs : Outputs} (hwritable : ∀ t ∈ outputs.targets, Writable roots g t) (j : NodeId) :
    (Builder.operation kind inputs outputs g).2.operation? j =
      if j = g.size then
        some ⟨kind, ({ id := g.size, kind : Node }.withInputs inputs).inputs, outputs.targets⟩
      else g.operation? j := by
  obtain ⟨hnew, htargets⟩ := targets_of_writable hwritable
  obtain ⟨-, -, hnode⟩ : _ ∧ Framed g (Builder.operation kind inputs outputs g).2 ∧ _ :=
    operation_effect hkind hnew
  have hkept : ({ id := g.size, kind : Node }.withInputs inputs).kind = kind :=
    Node.kind_withInputs _ inputs
  rw [operation?, hnode]
  split
  next =>
    rw [Option.bind_some, Node.operation?, hkept, if_pos hkind]
  next =>
    rw [operation?]
    cases hj : g.node? j with
    | none => rfl
    | some n =>
      rw [Option.map_some, Option.bind_some, Option.bind_some]
      by_cases hmem : j ∈ outputs.targets
      · -- a target gets a further input, but it is no operation
        have hoperation := htargets j hmem n hj
        rw [Node.operation?, Node.operation?, hoperation, Node.linked, hoperation]
        rfl
      · rw [List.count_eq_zero_of_not_mem hmem, Node.linked_zero]

section AddedOperation

variable {inputs : InputSet} {outputs : Outputs} (hkind : kind.isOperation = true)
  (hwritable : ∀ t ∈ outputs.targets, Writable roots g t)

include hkind hwritable

/-- What is read after an operation was added. -/
lemma reads_operation : (Builder.operation kind inputs outputs g).2.Reads i id ↔ g.Reads i id ∨
    (i = g.size ∧ id ∈ ({ id := g.size, kind : Node }.withInputs inputs).inputNodes) := by
  rw [Reads, operation?_operation hkind hwritable, Reads]
  split
  next hi =>
    subst hi
    simp [operation?_size, Operation.reads, Node.inputNodes]
  next hi => simp [hi]

/-- What is written after an operation was added. -/
lemma writes_operation : (Builder.operation kind inputs outputs g).2.Writes i id ↔ g.Writes i id ∨
    (i = g.size ∧ id ∈ outputs.targets) := by
  rw [Writes, operation?_operation hkind hwritable, Writes]
  split
  next hi =>
    subst hi
    simp [operation?_size]
  next hi => simp [hi]

/-- The operation that was added hands over what its own inputs do. -/
lemma hands_operation_size (hhands : Operation.Hands
    ⟨kind, ({ id := g.size, kind : Node }.withInputs inputs).inputs, []⟩ id) :
    (Builder.operation kind inputs outputs g).2.Hands g.size id :=
  ⟨_, (operation?_operation hkind hwritable g.size).trans (if_pos rfl), hhands⟩

/-- Operations hand over what they did before one was added. -/
lemma hands_operation_of_hands (hhands : g.Hands i id) :
    (Builder.operation kind inputs outputs g).2.Hands i id := by
  obtain ⟨o, ho, hhands⟩ := hhands
  exact ⟨o, by rw [operation?_operation hkind hwritable, if_neg (lt_size_of_operation? ho).ne, ho],
    hhands⟩

end AddedOperation

/-- The inputs of a well-wired node are variables. -/
lemma declared?_of_mem_inputNodes {n : Node} (hwired : n.WellWired roots g) (hid : id ∈ n.inputNodes) :
    (g.declared? id).isSome := by
  obtain ⟨e, he, heq⟩ := List.mem_filterMap.1 hid
  obtain ⟨source, hsource, hsome⟩ := hwired.inputs e he
  rw [hsource] at heq
  cases heq
  exact hsome

/-- An operation keeps the flow, if it writes open variables and built-in outputs and reads variables
that are not open. It closes variables that it writes, and it may take these as out-parameters. -/
lemma operation (h : Flow roots opened g) (hsound : Sound roots g) {inputs : InputSet}
    {outputs : Outputs} (hkind : kind.isOperation = true)
    (hwired : Node.WellWired roots g
      { ({ id := g.size, kind : Node }.withInputs inputs) with outputs })
    (htargets : ∀ t ∈ outputs.targets, t ∈ opened ∨ g.declared? t = none)
    (hinputs : ∀ id ∈ ({ id := g.size, kind : Node }.withInputs inputs).inputNodes, id ∈ opened →
      id ∉ opened' ∧
        Operation.Hands ⟨kind, ({ id := g.size, kind : Node }.withInputs inputs).inputs, []⟩ id)
    (hsub : opened'.Sublist opened)
    (hclosed : ∀ id ∈ opened, id ∈ opened' ∨ id ∈ outputs.targets) :
    Flow roots opened' (Builder.operation kind inputs outputs g).2 := by
  set g' := (Builder.operation kind inputs outputs g).2
  have hwritable : ∀ t ∈ outputs.targets, Writable roots g t := hwired.outputs
  have hnew := (targets_of_writable hwritable).1
  obtain ⟨-, hframed, hnode⟩ : _ ∧ Framed g g' ∧ _ := operation_effect hkind hnew
  have hkinds := (hsound.operation hkind hwired).2
  have hgrows : Grows g g' := .of_kind? hkinds
  have hdeclared : ∀ j, g'.declared? j = g.declared? j :=
    declared?_of_kind? hkinds (NodeKind.declared?_of_isOperation hkind)
  have hreads : ∀ i id, g'.Reads i id ↔ _ := fun _ _ => reads_operation hkind hwritable
  have hwrites : ∀ i id, g'.Writes i id ↔ _ := fun _ _ => writes_operation hkind hwritable
  refine ⟨hsub.nodup h.nodup, fun id n hn hnone i => ?_, fun id hid => ?_, fun id hid i hi => ?_,
    fun id v hv hdue => ?_, fun i j id hi hj => ?_, fun id v hv hcls => ?_⟩
  · rw [hwrites]
    rw [hnode] at hn
    split at hn
    · cases hn
      have hkept : ({ id := g.size, kind : Node }.withInputs inputs).kind = kind :=
        Node.kind_withInputs _ inputs
      rw [hkept, hkind] at hnone
      cases hnone
    · obtain ⟨m, hm, rfl⟩ := Option.map_eq_some_iff.1 hn
      rw [Node.mem_inputNodes_linked_iff, h.linked id m hm hnone i, ← List.count_pos_iff,
        Nat.pos_iff_ne_zero, eq_comm (a := i)]
  · obtain ⟨v, hv, hplace⟩ := h.declared id (hsub.subset hid)
    exact ⟨v, hgrows.declared? hv, hplace⟩
  · rcases (hreads i id).1 hi with hi | ⟨-, hi⟩
    · exact h.unread id (hsub.subset hid) i hi
    · exact (hinputs id hi (hsub.subset hid)).1 hid
  · rw [hdeclared] at hv
    rcases h.written id v hv hdue with hopen | ⟨i, hi⟩
    · refine (hclosed id hopen).imp_right fun hmem => ?_
      exact ⟨g.size, (hwrites _ _).2 (.inr ⟨rfl, hmem⟩)⟩
    · exact .inr ⟨i, (hwrites _ _).2 (.inl hi)⟩
  · rcases (hreads i id).1 hi with hold | ⟨rfl, hin⟩
    · rcases (hwrites j id).1 hj with hold' | ⟨rfl, hout⟩
      · exact (h.ordered i j id hold hold').imp_right fun hself =>
          ⟨hself.1, hands_operation_of_hands hkind hwritable hself.2⟩
      · -- an open variable was not read so far, and built-in outputs never are
        exfalso
        rcases htargets id hout with hopen | hnone
        · exact h.unread id hopen i hold
        · have hsome := hsound.declared?_of_reads hold
          rw [hnone] at hsome
          cases hsome
    · rcases (hwrites j id).1 hj with ⟨o, ho, -⟩ | ⟨rfl, hout⟩
      · exact .inl (lt_size_of_operation? ho)
      · rcases htargets id hout with hopen | hnone
        · exact .inr ⟨rfl, hands_operation_size hkind hwritable (hinputs id hin hopen).2⟩
        · have hsome : (g.declared? id).isSome := declared?_of_mem_inputNodes hwired hin
          rw [hnone] at hsome
          cases hsome
  · rw [hdeclared] at hv
    rw [hframed.varyings]
    exact h.varying id v hv hcls

end Flow

end Graph

end SceneShading
