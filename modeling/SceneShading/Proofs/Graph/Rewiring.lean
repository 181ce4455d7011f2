import Mathlib.Tactic
import SceneShading.Proofs.Graph.Referential

/-!
# Rewiring graphs

A described graph is wired after all of its nodes were created. Wiring leaves the nodes what they are,
and the registry and the varyings with them (`Graph.Rewires`). A graph that refers to nothing missing
goes on to do so if it is wired by the numbers of its own nodes.
-/

namespace SceneShading

variable {g g' g'' : Graph} {id : NodeId}

/-- The inputs have pins, so that they replace all others. -/
def InputSet.IsNamed (inputs : InputSet) : Prop := ∃ pins, inputs = .named pins

/-- The inputs of a node that is wired. -/
lemma Node.mem_inputNodes_withInputs_iff {n : Node} {inputs : InputSet} {source : NodeId} :
    source ∈ (n.withInputs inputs).inputNodes ↔
      source ∈ inputs.nodes ∨ (source ∈ n.inputNodes ∧ ¬inputs.IsNamed) := by
  cases inputs with
  | positional sources =>
    have hpositional : ¬(InputSet.positional sources).IsNamed := by rintro ⟨pins, ⟨⟩⟩
    rw [inputNodes_withInputs_positional, List.mem_append, and_iff_left hpositional, or_comm]
    rfl
  | named pins =>
    have hnamed : (InputSet.named pins).IsNamed := ⟨pins, rfl⟩
    rw [n.inputNodes_withInputs_named, or_iff_left fun h => h.2 hnamed]

namespace Graph

/-- The nodes may be wired in another way, and no problem is forgotten. -/
structure Rewires (g g' : Graph) : Prop where
  kinds : ∀ id, g'.kind? id = g.kind? id
  registry : g'.registry = g.registry
  varyings : g'.varyings = g.varyings
  fault : g'.fault = g.fault
  diagnostics : g.diagnostics ⊆ g'.diagnostics

lemma Rewires.refl (g : Graph) : Rewires g g :=
  ⟨fun _ => rfl, rfl, rfl, rfl, List.Subset.refl _⟩

lemma Rewires.trans (h : Rewires g g') (h' : Rewires g' g'') : Rewires g g'' :=
  ⟨fun id => (h'.kinds id).trans (h.kinds id), h'.registry.trans h.registry,
    h'.varyings.trans h.varyings, h'.fault.trans h.fault,
    List.Subset.trans h.diagnostics h'.diagnostics⟩

/-- The number of nodes stays the same. -/
lemma Rewires.size_eq (h : Rewires g g') : g'.size = g.size := by
  refine Nat.le_antisymm ?_ ?_
  · exact kind?_eq_none_iff.1 ((h.kinds _).trans (kind?_eq_none_iff.2 le_rfl))
  · exact kind?_eq_none_iff.1 ((h.kinds _).symm.trans (kind?_eq_none_iff.2 le_rfl))

lemma Rewires.declared?_eq (h : Rewires g g') (id : NodeId) : g'.declared? id = g.declared? id := by
  rw [Graph.declared?_eq, Graph.declared?_eq, h.kinds]

lemma Quiet.rewires (h : Quiet g g') : Rewires g g' :=
  ⟨fun id => by rw [kind?, node?, h.nodes]; rfl, h.registry, h.varyings, h.fault,
    h.diagnostics⟩

/-- A node is wired in another way. -/
lemma rewires_modify (hid : id < g.size) {f : Node → Node} (hf : ∀ n, (f n).kind = n.kind) :
    Rewires g (g.modify id f) := by
  have hframed := modify_framed hid f
  refine ⟨fun other => ?_, hframed.registry, hframed.varyings, hframed.fault,
    hframed.diagnostics ▸ List.Subset.refl _⟩
  rw [kind?, node?_modify hid, kind?]
  split
  · rw [Option.map_map]
    exact congrArg (Option.map · _) (funext hf)
  · rfl

/-- A node that is wired in another way still refers to nothing missing, if its new wiring does. -/
lemma Referential.modify (h : g.Referential) (hid : id < g.size) {f : Node → Node}
    (hf : ∀ n, (f n).kind = n.kind)
    (hinputs : ∀ n, g.node? id = some n → ∀ input ∈ (f n).inputNodes, input < g.size)
    (houtputs : ∀ n, g.node? id = some n → ∀ target ∈ (f n).outputs.targets, target < g.size) :
    (g.modify id f).Referential := by
  have hrewires := rewires_modify hid hf
  have hsize := hrewires.size_eq
  have hcases : ∀ other n, (g.modify id f).node? other = some n →
      g.node? other = some n ∨ ∃ m, g.node? id = some m ∧ n = f m := by
    intro other n hn
    rw [node?_modify hid] at hn
    split at hn
    next heq =>
      subst heq
      obtain ⟨m, hm, rfl⟩ := Option.map_eq_some_iff.1 hn
      exact .inr ⟨m, hm, rfl⟩
    next => exact .inl hn
  refine ⟨fun other n hn input hinput => ?_, fun other n hn target htarget => ?_, fun e he => ?_,
    fun e he => ?_⟩
  · rw [hsize]
    rcases hcases other n hn with hn | ⟨m, hm, rfl⟩
    · exact h.inputs other n hn input hinput
    · exact hinputs m hm input hinput
  · rw [hsize]
    rcases hcases other n hn with hn | ⟨m, hm, rfl⟩
    · exact h.outputs other n hn target htarget
    · exact houtputs m hm target htarget
  · rw [hrewires.declared?_eq]
    exact h.registry e (hrewires.registry ▸ he)
  · rw [hrewires.declared?_eq]
    exact h.varyings e (hrewires.varyings ▸ he)

/-- A graph after wiring that refers to nothing missing. -/
structure Rewired (g g' : Graph) : Prop where
  referential : g'.Referential
  rewires : Rewires g g'

lemma Rewired.trans (h : Rewired g g') (h' : Rewired g' g'') : Rewired g g'' :=
  ⟨h'.referential, h.rewires.trans h'.rewires⟩

lemma Quiet.rewired (h : Quiet g g') (hg : g.Referential) : Rewired g g' :=
  ⟨h.referential hg, h.rewires⟩

/-- Inputs are wired to a node. -/
lemma Referential.wireInputs (h : g.Referential) (hid : id < g.size) {inputs : InputSet}
    (hinputs : ∀ input ∈ inputs.nodes, input < g.size) : Rewired g (g.wireInputs id inputs) := by
  have hkind : ∀ n : Node, (n.withInputs inputs).kind = n.kind := fun n => n.kind_withInputs inputs
  have houtputs : ∀ n : Node, (n.withInputs inputs).outputs = n.outputs := by
    intro n
    cases inputs <;> rfl
  refine ⟨h.modify hid hkind (fun n hn input hinput => ?_) fun n hn target htarget => ?_,
    rewires_modify hid hkind⟩
  · rcases Node.mem_inputNodes_withInputs_iff.1 hinput with hinput | ⟨hinput, -⟩
    · exact hinputs input hinput
    · exact h.inputs id n hn input hinput
  · rw [houtputs] at htarget
    exact h.outputs id n hn target htarget

/-- A target is linked to a node. -/
lemma Referential.linkTarget (h : g.Referential) (hid : id < g.size) (target : NodeId) :
    Rewired g (Graph.linkTarget id g target) := by
  unfold Graph.linkTarget
  split
  next htarget =>
    refine h.wireInputs htarget fun input hinput => ?_
    cases List.mem_singleton.1 hinput
    exact hid
  next => exact (g.quiet_note _).rewired h

/-- Targets are linked to a node, one after another. -/
lemma Referential.linkTargets (h : g.Referential) (hid : id < g.size) (targets : List NodeId) :
    Rewired g (targets.foldl (Graph.linkTarget id) g) := by
  induction targets generalizing g with
  | nil => exact ⟨h, .refl g⟩
  | cons target targets ih =>
    have hfirst := h.linkTarget hid target
    exact hfirst.trans (ih hfirst.referential (hfirst.rewires.size_eq ▸ hid))

/-- Outputs are declared for a node. -/
lemma Referential.wireOutputs (h : g.Referential) (hid : id < g.size) {outputs : Outputs}
    (houtputs : ∀ target ∈ outputs.targets, target < g.size) :
    Rewired g (g.wireOutputs id outputs) := by
  have hnode : g.node? id = some g.nodes[id] := Array.getElem?_eq_getElem hid
  unfold Graph.wireOutputs
  rw [hnode]
  simp only
  split
  · exact ⟨h, .refl g⟩
  · have hlinked := h.linkTargets hid outputs.targets
    have hsize := hlinked.rewires.size_eq
    have hid' : id < (outputs.targets.foldl (Graph.linkTarget id) g).size := hsize ▸ hid
    refine hlinked.trans ⟨hlinked.referential.modify hid' (fun _ => rfl)
      (fun n hn => hlinked.referential.inputs id n hn) fun n _ target htarget => ?_,
      rewires_modify hid' fun _ => rfl⟩
    exact hsize ▸ houtputs target htarget

/-- A comment changes no wiring. -/
lemma Referential.setComment (h : g.Referential) (hid : id < g.size) (text : String) :
    Rewired g (g.setComment id text) :=
  ⟨h.modify hid (fun _ => rfl) (h.inputs id) (h.outputs id), rewires_modify hid fun _ => rfl⟩

end Graph

end SceneShading
