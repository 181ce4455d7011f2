import Mathlib.Tactic
import SceneShading.Proofs.Graph.Rewiring

/-!
# The kinds of nodes that builders add

What is in a graph is what its builder asked for. A property of kinds holds of all nodes of a graph
(`Graph.Only`) if the builder adds only nodes of such kinds (`Adds`). There is a rule for each request;
wiring and comments change no kinds at all (`Graph.Rewires`), and a variable that is found again is no
new node.
-/

namespace SceneShading

variable {P : NodeKind → Prop} {g g' : Graph} {α β : Type}

namespace Graph

/-- All nodes of the graph are of some kinds. -/
def Only (P : NodeKind → Prop) (g : Graph) : Prop := ∀ id kind, g.kind? id = some kind → P kind

/-- The graph without nodes has no kinds of nodes. -/
lemma only_ofStage (stage : Stage) : (ofStage stage).Only P := by
  intro id kind hkind
  simp [ofStage, kind?, node?] at hkind

/-- The nodes of the graph are of these kinds. -/
lemma Only.of_node? {id : NodeId} {n : Node} (h : g.Only P) (hn : g.node? id = some n) : P n.kind :=
  h id n.kind (by rw [kind?, hn, Option.map_some])

/-- Nodes that stay what they are stay of these kinds. -/
lemma Only.of_kinds (h : g.Only P) (hkinds : ∀ id, g'.kind? id = g.kind? id) : g'.Only P :=
  fun id kind hkind => h id kind (hkinds id ▸ hkind)

/-- One more node. -/
lemma Only.insert (h : g.Only P) {kind : NodeKind} (hkind : P kind) : (g.insert kind).2.Only P := by
  intro id other hother
  rw [kind?, node?_insert] at hother
  split at hother
  · cases hother
    exact hkind
  · exact h id other hother

/-- One more variable. -/
lemma Only.insertVariable (h : g.Only P) {v : Variable} (hv : P (.var v)) :
    (g.insertVariable v).2.Only P :=
  (h.insert hv).of_kinds fun _ => rfl

/-- A change of a node that leaves its kind alone, whether there is such a node or not. -/
lemma Only.modify (h : g.Only P) (id : NodeId) {f : Node → Node} (hf : ∀ n, (f n).kind = n.kind) :
    (g.modify id f).Only P := by
  by_cases hid : id < g.size
  · exact h.of_kinds (rewires_modify hid hf).kinds
  · rw [Graph.modify, if_neg hid]
    exact h.of_kinds fun _ => rfl

/-- Inputs are no nodes. -/
lemma Only.wireInputs (h : g.Only P) (id : NodeId) (inputs : InputSet) :
    (g.wireInputs id inputs).Only P :=
  h.modify id fun n => n.kind_withInputs inputs

/-- Outputs are no nodes. -/
lemma Only.wireOutputs (h : g.Only P) (id : NodeId) (outputs : Outputs) :
    (g.wireOutputs id outputs).Only P := by
  have hlinked : ∀ (targets : List NodeId) (g : Graph), g.Only P →
      (targets.foldl (linkTarget id) g).Only P := by
    intro targets
    induction targets with
    | nil => exact fun g hg => hg
    | cons target targets ih =>
      refine fun g hg => ih _ ?_
      unfold linkTarget
      split
      · exact hg.wireInputs target _
      · exact hg.of_kinds fun _ => rfl
  unfold Graph.wireOutputs
  split
  · exact h.of_kinds fun _ => rfl
  · split
    · exact h
    · exact (hlinked outputs.targets g h).modify id fun _ => rfl

/-- What is reported is no node. -/
lemma Only.quiet (h : g.Only P) (hquiet : g.Quiet g') : g'.Only P := h.of_kinds hquiet.rewires.kinds

/-- What answers a request is an older node or the variable that was asked for. -/
lemma Only.answered (h : g.Only P) {v : Variable} {answer : NodeId × Graph}
    (ha : g.Answered v answer) (hv : P (.var v)) : answer.2.Only P := by
  cases ha with
  | found hquiet => exact h.quiet hquiet
  | made hquiet => exact (h.quiet hquiet).insertVariable hv
  | joined hquiet => exact ((h.quiet hquiet).insertVariable hv).of_kinds fun _ => rfl

end Graph

/-- The builder adds only nodes of some kinds. -/
def Adds (P : NodeKind → Prop) (b : Builder α) : Prop := ∀ g : Graph, g.Only P → (b g).2.Only P

namespace Adds

variable {b : Builder α} {f : α → Builder β} {type name value : String}

lemma pure (a : α) : Adds P (Pure.pure a : Builder α) := fun _ h => h

/-- One builder after another. -/
lemma bind (hb : Adds P b) (hf : ∀ a, Adds P (f a)) : Adds P (b >>= f) :=
  fun g h => hf (b g).1 (b g).2 (hb g h)

/-- What is registered under a name, or else what a builder makes. -/
lemma orElse {make : Builder NodeId} (h : Adds P make) : Adds P (Builder.orElse name make) := by
  rw [Builder.orElse]
  refine .bind (fun _ hg => hg) fun found => ?_
  cases found with
  | none => exact h
  | some id => exact .pure id

/-! ### Operations and outputs -/

/-- A node without wiring. -/
lemma node {kind : NodeKind} (h : P kind) : Adds P (Builder.node kind) := fun _ hg => hg.insert h

/-- An operation. -/
lemma operation {kind : NodeKind} {inputs : InputSet} {outputs : Outputs} (h : P kind) :
    Adds P (Builder.operation kind inputs outputs) :=
  fun _ hg => ((hg.insert h).wireInputs _ inputs).wireOutputs _ outputs

/-- A comment is no node. -/
lemma comment (id : NodeId) (text : String) : Adds P (Builder.comment id text) :=
  fun _ hg => hg.modify id fun _ => rfl

/-- A fault is no node. -/
lemma fail (f : Fault) : Adds P (Builder.fail f) := fun _ hg => hg.of_kinds fun _ => rfl

/-! ### Variables -/

/-- A local under a temporary name. -/
lemma temporary (h : ∀ name, P (.var { cls := .temporary, type, name })) :
    Adds P (Builder.temporary type) :=
  fun _ hg => hg.insertVariable (h _)

/-- A local under a wanted name. -/
lemma localNamed (h : ∀ name, P (.var { cls := .temporary, type, name })) :
    Adds P (Builder.localNamed type name) :=
  fun _ hg => hg.insertVariable (h _)

/-- A local with an initial value. -/
lemma localValued (h : ∀ name, P (.var { cls := .temporary, type, name, value := some value })) :
    Adds P (Builder.localValued type value) := by
  intro g hg
  have hset := g.setValue_insertVariable
    { cls := .temporary, type, name := g.registry.localName none } value
  rw [show (Builder.localValued type value g).2 = _ from hset]
  exact hg.insertVariable (h _)

/-- A builder that asks for a variable. -/
lemma of_answered {b : Builder NodeId} {v : Variable} (hb : ∀ g : Graph, g.Answered v (b g))
    (h : P (.var v)) : Adds P b :=
  fun g hg => hg.answered (hb g) h

lemma uniform (h : P (.var { cls := .uniform, type, name })) : Adds P (Builder.uniform type name) :=
  of_answered (fun g => g.answered_uniform type name none) h

lemma uniformArray {size : Nat} (h : P (.var { cls := .uniform, type, name, size := some size })) :
    Adds P (Builder.uniformArray type name size) :=
  of_answered (fun g => g.answered_uniform type name (some size)) h

lemma sampler (h : P (.var { cls := .sampler, type, name })) : Adds P (Builder.sampler type name) :=
  of_answered (fun g => g.answered_sampler type name) h

lemma vertexAttribute (h : P (.var { cls := .attribute, type, name })) :
    Adds P (Builder.vertexAttribute type name) :=
  of_answered (fun g => g.answered_vertexAttribute type name) h

lemma constant (h : P (.var { cls := .constant, type, name, value := some value })) :
    Adds P (Builder.constant type name value) :=
  of_answered (fun g => g.answered_constant type name value) h

lemma varying (h : P (.var { cls := .varying, type, name })) : Adds P (Builder.varying type name) :=
  of_answered (fun g => g.answered_varying type name) h

end Adds

end SceneShading
