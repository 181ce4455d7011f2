import Mathlib.Tactic
import SceneShading.Proofs.Graph.Rewiring

/-!
# Requests

A graph is built by requests, one after another. Builders make them with names of their own choice, and
whoever holds a graph can make any of them (`Graph.Request`): with any names, for nodes of any kind, and
also with numbers that no node has.

What a request can do is said once (`Graph.Request.changes_after`). It alters nodes, but none of them
gets another number, and no variable gets another class or name (`Graph.Alters`); what is registered
stays registered for the same node. And it may add a node, which is registered if it is a variable that
was asked for by its name (`Graph.Changes`). Whatever holds of all graphs that requests lead to follows
from this.
-/

namespace SceneShading

/-- What stays the same of a node when it is altered: its number, and the class and the name if it is a
variable. -/
def Node.label (n : Node) : NodeId × Option (VariableClass × String) :=
  (n.id, n.kind.declared?.map fun v => (v.cls, v.name))

/-- Wiring alters a node. -/
lemma Node.label_withInputs (n : Node) (inputs : InputSet) : (n.withInputs inputs).label = n.label := by
  cases inputs <;> rfl

/-- A value alters a variable or a definition. -/
lemma NodeKind.label_withValue? {kind kind' : NodeKind} {value : String}
    (h : kind.withValue? value = some kind') :
    kind'.declared?.map (fun v => (v.cls, v.name)) = kind.declared?.map fun v => (v.cls, v.name) := by
  cases kind with
  | var v =>
    cases h
    rfl
  | define name _ =>
    cases h
    rfl
  | _ => cases h

namespace Graph

variable {g g' g'' : Graph} {id : NodeId}

/-! ## What can be asked of a graph -/

/-- The answer to a request for a local, with or without a wanted name and an initial value. -/
def makeLocal (g : Graph) (type : String) (wanted value : Option String) : NodeId × Graph :=
  match value with
  | none => g.createVariable type wanted
  | some value => g.createVariableWithValue type wanted value

/-- A request for a local makes a new variable. -/
lemma makeLocal_eq (g : Graph) (type : String) (wanted value : Option String) :
    g.makeLocal type wanted value =
      g.insertVariable { cls := .temporary, type, name := g.registry.localName wanted, value } := by
  cases value with
  | none => rfl
  | some value => exact congrArg (Prod.mk g.size) (g.setValue_insertVariable _ value)

/-- What can be asked of a graph. -/
inductive Request where
  | newLocal (type : String) (wanted value : Option String)
  | uniform (type name : String) (size : Option Nat)
  | sampler (type name : String)
  | vertexAttribute (type name : String)
  | constant (type name value : String)
  | varying (type name : String)
  /-- A node that a catalogue makes. -/
  | create (catalogue : Catalogue) (nodeType : String) (args : List NodeArg)
  /-- A node that is not registered, whatever it is. -/
  | node (kind : NodeKind)
  | wireInputs (id : NodeId) (inputs : InputSet)
  | wireOutputs (id : NodeId) (outputs : Outputs)
  | setComment (id : NodeId) (text : String)
  | setValue (id : NodeId) (value : String)
  | setCode (id : NodeId) (code : String)
  | setMatrixFlags (id : NodeId) (f : MatrixMult → MatrixMult)

namespace Request

/-- The graph after a request. -/
def after (g : Graph) : Request → Graph
  | newLocal type wanted value => (g.makeLocal type wanted value).2
  | uniform type name size => (g.uniform type name size).2
  | sampler type name => (g.sampler type name).2
  | vertexAttribute type name => (g.vertexAttribute type name).2
  | constant type name value => (g.constant type name value).2
  | varying type name => (g.varying type name).2
  | create catalogue nodeType args => (g.createNode catalogue nodeType args).2
  | node kind => (g.insert kind).2
  | wireInputs id inputs => g.wireInputs id inputs
  | wireOutputs id outputs => g.wireOutputs id outputs
  | setComment id text => g.setComment id text
  | setValue id value => g.setValue id value
  | setCode id code => g.setCode id code
  | setMatrixFlags id f => g.setMatrixFlags id f

/-- The names that a caller may give to a variable by the request: the name that the request names, and
for a local also that name with a number. -/
def Asks : Request → String → Prop
  | newLocal _ (some wanted) _, name => name = wanted ∨ ∃ n : Nat, name = wanted ++ toString n
  | uniform _ wanted _, name => name = wanted
  | sampler _ wanted, name => name = wanted
  | vertexAttribute _ wanted, name => name = wanted
  | constant _ wanted _, name => name = wanted
  | varying _ wanted, name => name = wanted
  | create catalogue nodeType args, name =>
    ∃ v, catalogue.create nodeType args = .ok (.var v) ∧ v.name = name
  | _, _ => False

end Request

/-- The graph after requests, one after another. -/
def afterAll (start : Graph) (requests : List Request) : Graph := requests.foldl Request.after start

/-! ## Altered nodes -/

/-- Nodes may be altered, but each stays what it is, and nothing else is registered or a varying. -/
structure Alters (g g' : Graph) : Prop where
  labels : ∀ id, (g'.node? id).map Node.label = (g.node? id).map Node.label
  registry : g'.registry = g.registry
  varyings : g'.varyings = g.varyings

namespace Alters

lemma refl (g : Graph) : Alters g g := ⟨fun _ => rfl, rfl, rfl⟩

lemma trans (h : Alters g g') (h' : Alters g' g'') : Alters g g'' :=
  ⟨fun id => (h'.labels id).trans (h.labels id), h'.registry.trans h.registry,
    h'.varyings.trans h.varyings⟩

/-- An altered node has the number that it had. -/
lemma exists_node? (h : Alters g g') {n : Node} (hn : g'.node? id = some n) :
    ∃ m, g.node? id = some m ∧ m.id = n.id := by
  have hlabel := h.labels id
  rw [hn, Option.map_some, eq_comm, Option.map_eq_some_iff] at hlabel
  obtain ⟨m, hm, heq⟩ := hlabel
  exact ⟨m, hm, congrArg Prod.fst heq⟩

/-- An altered variable has the class and the name that it had. -/
lemma exists_declared? (h : Alters g g') {v : Variable} (hv : g.declared? id = some v) :
    ∃ w, g'.declared? id = some w ∧ w.cls = v.cls ∧ w.name = v.name := by
  obtain ⟨m, hm, hdeclared⟩ := Option.bind_eq_some_iff.1 hv
  have hlabel := h.labels id
  rw [hm, Option.map_some, Option.map_eq_some_iff] at hlabel
  obtain ⟨n, hn, heq⟩ := hlabel
  have hvariable := congrArg Prod.snd heq
  simp only [Node.label, hdeclared, Option.map_some, Option.map_eq_some_iff] at hvariable
  obtain ⟨w, hw, hpair⟩ := hvariable
  refine ⟨w, ?_, congrArg Prod.fst hpair, congrArg Prod.snd hpair⟩
  rw [declared?, hn, Option.bind_some, hw]

end Alters

/-- A quiet change alters no node. -/
lemma Quiet.alters (h : Quiet g g') : Alters g g' :=
  ⟨fun id => by rw [node?, h.nodes, node?], h.registry, h.varyings⟩

/-- A fault alters no node. -/
lemma alters_fail (g : Graph) (f : Fault) : Alters g (g.fail f) := ⟨fun _ => rfl, rfl, rfl⟩

/-- A node is altered, whether there is such a node or not. -/
lemma alters_modify (g : Graph) (id : NodeId) {f : Node → Node}
    (hf : ∀ n, g.node? id = some n → (f n).label = n.label) : Alters g (g.modify id f) := by
  by_cases hid : id < g.size
  · have hframed := modify_framed hid f
    refine ⟨fun other => ?_, hframed.registry, hframed.varyings⟩
    rw [node?_modify hid]
    split
    next heq =>
      subst heq
      cases hn : g.node? other with
      | none => rfl
      | some n => exact congrArg some (hf n hn)
    next => rfl
  · rw [modify, if_neg hid]
    exact g.alters_fail _

lemma alters_wireInputs (g : Graph) (id : NodeId) (inputs : InputSet) :
    Alters g (g.wireInputs id inputs) :=
  g.alters_modify id fun n _ => n.label_withInputs inputs

/-- Targets are altered, one after another. -/
lemma alters_linkTargets (id : NodeId) (targets : List NodeId) (g : Graph) :
    Alters g (targets.foldl (linkTarget id) g) := by
  induction targets generalizing g with
  | nil => exact .refl g
  | cons target targets ih =>
    refine Alters.trans ?_ (ih _)
    unfold linkTarget
    split
    · exact g.alters_wireInputs target _
    · exact (g.quiet_note _).alters

lemma alters_wireOutputs (g : Graph) (id : NodeId) (outputs : Outputs) :
    Alters g (g.wireOutputs id outputs) := by
  unfold wireOutputs
  split
  · exact g.alters_fail _
  · split
    · exact .refl g
    · exact (alters_linkTargets id outputs.targets g).trans (alters_modify _ id fun _ _ => rfl)

lemma alters_setValue (g : Graph) (id : NodeId) (value : String) : Alters g (g.setValue id value) := by
  unfold setValue
  split
  · exact g.alters_fail _
  next n hn =>
    split
    next kind hkind =>
      refine g.alters_modify id fun m hm => ?_
      obtain rfl : n = m := Option.some.inj (hn.symm.trans hm)
      exact congrArg (Prod.mk n.id) (NodeKind.label_withValue? hkind)
    next => exact (g.quiet_note _).alters

lemma alters_setCode (g : Graph) (id : NodeId) (code : String) : Alters g (g.setCode id code) := by
  unfold setCode
  split
  · exact g.alters_fail _
  next n hn =>
    split
    next hkind =>
      refine g.alters_modify id fun m hm => ?_
      obtain rfl : n = m := Option.some.inj (hn.symm.trans hm)
      simp only [Node.label, hkind, NodeKind.declared?]
    next => exact (g.quiet_note _).alters

lemma alters_setMatrixFlags (g : Graph) (id : NodeId) (f : MatrixMult → MatrixMult) :
    Alters g (g.setMatrixFlags id f) := by
  refine g.alters_modify id fun n _ => ?_
  split
  next m hkind => simp only [Node.label, hkind, NodeKind.declared?]
  next => rfl

/-! ## What a request can do -/

/-- A change of a graph: nodes are altered, and then at most one node is added, which may be registered
if it is a variable of some kind. A new varying joins the varyings only under a name that was free. -/
inductive Changes (P : Variable → Prop) (g : Graph) : Graph → Prop where
  | altered {g' : Graph} (alters : Alters g g') : Changes P g g'
  | inserted {g' : Graph} (alters : Alters g g') (kind : NodeKind) : Changes P g (g'.insert kind).2
  | registered {g' : Graph} {v : Variable} (alters : Alters g g') (holds : P v) :
    Changes P g (g'.insertVariable v).2
  | joined {g' : Graph} {v : Variable} (alters : Alters g g') (holds : P v)
    (free : g.find? v.name = none) (varying : v.cls = .varying) :
    Changes P g ((g'.insertVariable v).2.addVarying v.name (g'.insertVariable v).1)

namespace Changes

variable {P : Variable → Prop}

/-- A request for a variable registers at most what was asked for. -/
lemma of_answered {v : Variable} {answer : NodeId × Graph} (ha : g.Answered v answer) (hv : P v) :
    Changes P g answer.2 := by
  cases ha with
  | found hquiet => exact .altered hquiet.alters
  | made hquiet => exact .registered hquiet.alters hv
  | joined hquiet hfree hcls => exact .joined hquiet.alters hv hfree hcls

/-- A request for what a catalogue makes registers it if it is a variable. -/
lemma of_createAnswered {made : Except Diagnostic NodeKind} {answer : Except Diagnostic NodeId × Graph}
    (ha : g.CreateAnswered made answer) (h : ∀ v, made = .ok (.var v) → P v) :
    Changes P g answer.2 := by
  cases ha with
  | refused _ hquiet => exact .altered hquiet.alters
  | answered hvar ha => exact .of_answered ha (h _ hvar)
  | inserted _ _ hquiet => exact .inserted hquiet.alters _

end Changes

/-- **What a request can do.** If it registers a variable, then under a name that was asked for, or the
next temporary name. -/
theorem Request.changes_after (g : Graph) (q : Request) :
    Changes (fun v => q.Asks v.name ∨ v.name = "tmp_" ++ toString g.registry.size) g (q.after g) := by
  cases q with
  | newLocal type wanted value =>
    rw [after, makeLocal_eq]
    refine .registered (.refl g) ?_
    cases wanted with
    | none => exact .inr rfl
    | some wanted => exact .inl (g.registry.localName_some wanted).2
  | uniform type name size => exact .of_answered (g.answered_uniform type name size) (.inl rfl)
  | sampler type name => exact .of_answered (g.answered_sampler type name) (.inl rfl)
  | vertexAttribute type name => exact .of_answered (g.answered_vertexAttribute type name) (.inl rfl)
  | constant type name value => exact .of_answered (g.answered_constant type name value) (.inl rfl)
  | varying type name => exact .of_answered (g.answered_varying type name) (.inl rfl)
  | create catalogue nodeType args =>
    exact .of_createAnswered (g.createAnswered_createNode catalogue nodeType args)
      fun v hv => .inl ⟨v, hv, rfl⟩
  | node kind => exact .inserted (.refl g) kind
  | wireInputs id inputs => exact .altered (g.alters_wireInputs id inputs)
  | wireOutputs id outputs => exact .altered (g.alters_wireOutputs id outputs)
  | setComment id text => exact .altered (g.alters_modify id fun _ _ => rfl)
  | setValue id value => exact .altered (g.alters_setValue id value)
  | setCode id code => exact .altered (g.alters_setCode id code)
  | setMatrixFlags id f => exact .altered (g.alters_setMatrixFlags id f)

end Graph

end SceneShading
