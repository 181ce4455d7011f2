import Mathlib.Tactic
import SceneShading.Proofs.Graph.Kinds
import SceneShading.Proofs.Graph.Naming

/-!
# Types of operands

The name of a variable stands for its type, unless it is a temporary name (`Variable.Named`): so what a
builder finds under a name has the type that it would have declared. The types of the samplers of texture
units are a parameter of everything here, since no name says what they are.

A combination takes as many components of an operand as its target has, and it takes floats as they
are. So the type of the target decides what may be combined into it (`combinable`), and a graph is well
typed if its combinations, its texture reads and its receiving functions are wired to nodes of fitting
types (`Graph.Typed`). No request changes the type of an older node, so the types that a builder knows
of last. `Types` judges builders by this: there is a rule for each request, and each of them follows
from what the request leaves (`Graph.Typed.answered`, `Graph.Typed.operation`).
-/

namespace SceneShading

variable {samplerType : Nat → String} {g g' g'' : Graph} {id : NodeId} {kind : NodeKind}
  {α β : Type}

/-! ## Names and types -/

/-- The types of data. -/
def dataTypes : List String := ["bool", "float", "vec2", "vec3", "vec4", "mat4"]

/-- The name of the variable stands for its type: it is a word of its class, or the name of the sampler
of a texture unit. Only a temporary name does not tell which data it is for. -/
def Variable.Named (samplerType : Nat → String) (v : Variable) : Prop :=
  HasType v.cls v.name v.type ∨
    (∃ unit, v.cls = .sampler ∧ v.name = samplerName unit ∧ v.type = samplerType unit) ∨
      (letters v.name = "tmp_".toList ∧ v.type ∈ dataTypes)

namespace Variable.Named

variable {v : Variable}

/-- A word stands for one type. -/
lemma type_eq (h : v.Named samplerType) {cls : VariableClass} {type : String}
    (hname : HasType cls v.name type) : v.type = type := by
  rcases h with h | ⟨unit, -, h, -⟩ | ⟨h, -⟩
  · exact (h.unique hname).2
  · exact absurd (h ▸ letters_samplerName unit) hname.letters_ne_sampler
  · exact absurd h hname.letters_ne_temporary

/-- The name of a sampler stands for a sampler with the type of the unit. -/
lemma eq_samplerType (h : v.Named samplerType) {unit : Nat} (hname : v.name = samplerName unit) :
    v.cls = .sampler ∧ v.type = samplerType unit := by
  have hletters : letters v.name = "Texture".toList := hname ▸ letters_samplerName unit
  rcases h with h | ⟨other, hcls, h, htype⟩ | ⟨h, -⟩
  · exact absurd hletters h.letters_ne_sampler
  · have hunit : other = unit := append_toString_injective "Texture" (h.symm.trans hname)
    exact ⟨hcls, hunit ▸ htype⟩
  · exact absurd (hletters.symm.trans h) (by decide)

end Variable.Named

/-- A variable is named after its type. -/
def NodeKind.Named (samplerType : Nat → String) (kind : NodeKind) : Prop :=
  ∀ v, kind = .var v → v.Named samplerType

/-! ## Well-typed nodes -/

/-- The operation asks something of the types of what it is wired to. -/
def NodeKind.isChecked : NodeKind → Bool
  | .add | .mult | .setFromNode | .texture _ | .shadowReceive _ => true
  | _ => false

/-- The operation combines its inputs by an operator. -/
def NodeKind.isCombination : NodeKind → Bool
  | .add | .mult | .setFromNode => true
  | _ => false

/-- The types of operands that have all the components which a combination takes of them for a target
of the type. -/
def combinable : String → List String
  | "float" => ["float"]
  | "vec2" => ["float", "vec2", "vec3", "vec4"]
  | "vec3" => ["float", "vec3", "vec4"]
  | "vec4" => ["float", "vec4"]
  | _ => []

/-- Functions take data, and samplers of texture units that are flat. -/
def Operand.Passes (samplerType : Nat → String) (o : Operand) : Prop :=
  (∃ type ∈ dataTypes, o.type = some type) ∨
    ∃ unit, o = ⟨samplerName unit, some (samplerType unit)⟩ ∧ samplerType unit = "sampler2D"

/-- The type of the variable or built-in output that a node stands for. -/
def Graph.type? (g : Graph) (id : NodeId) : Option String := (g.operand? id).bind (·.type)

/-- The source is a node of one of the types. -/
def Source.Fits (g : Graph) (allowed : List String) (s : Source) : Prop :=
  ∃ id, s = .node id ∧ ∃ type ∈ allowed, g.type? id = some type

/-- The source is a node that functions take. -/
def Source.Passes (samplerType : Nat → String) (g : Graph) (s : Source) : Prop :=
  ∃ id, s = .node id ∧ ∃ o, g.operand? id = some o ∧ o.Passes samplerType

/-- The node has one target, and inputs whose types fit that of the target. -/
def Node.Combines (g : Graph) (n : Node) : Prop :=
  ∃ target type, n.outputs = .single target ∧ g.type? target = some type ∧
    ∀ e ∈ n.inputs, e.2.Fits g (combinable type)

/-- The node has the sampler of a texture unit, and texture coordinates. -/
def Node.Samples (samplerType : Nat → String) (g : Graph) (n : Node) : Prop :=
  ∃ unit sampler uv,
    n.input? "sampler" = some (.node sampler) ∧ n.input? "uv" = some (.node uv) ∧
      g.operand? sampler = some ⟨samplerName unit, some (samplerType unit)⟩ ∧
        g.type? uv = some "vec2"

/-- What combines, reads a texture or receives shadows is wired to nodes of fitting types. -/
def Node.WellTyped (samplerType : Nat → String) (g : Graph) (n : Node) : Prop :=
  match n.kind with
  | .add | .mult | .setFromNode => n.Combines g
  | .texture _ => n.Samples samplerType g
  | .shadowReceive _ => ∀ e ∈ n.inputs, e.2.Passes samplerType g
  | _ => True

namespace Graph

/-- A variable has its type. -/
lemma type?_of_declared? {v : Variable} (h : g.declared? id = some v) : g.type? id = some v.type := by
  rw [type?, operand?_of_declared? h, Option.bind_some]

/-- What has a type is an operand. -/
lemma isSome_operand?_of_type? {type : String} (h : g.type? id = some type) :
    (g.operand? id).isSome := by
  obtain ⟨o, ho, -⟩ := Option.bind_eq_some_iff.1 h
  rw [ho, Option.isSome_some]

/-- Types stay. -/
lemma Grows.type? (h : g.Grows g') {type : String} (hid : g.type? id = some type) :
    g'.type? id = some type := by
  rw [Graph.type?, h.operand? (isSome_operand?_of_type? hid)]
  exact hid

end Graph

lemma Source.Fits.grows {allowed : List String} {s : Source} (h : s.Fits g allowed)
    (hg : g.Grows g') : s.Fits g' allowed := by
  obtain ⟨id, hs, type, hmem, htype⟩ := h
  exact ⟨id, hs, type, hmem, hg.type? htype⟩

lemma Source.Passes.grows {s : Source} (h : s.Passes samplerType g) (hg : g.Grows g') :
    s.Passes samplerType g' := by
  obtain ⟨id, hs, o, ho, hpasses⟩ := h
  exact ⟨id, hs, o, (hg.operand? (by rw [ho, Option.isSome_some])).trans ho, hpasses⟩

lemma Node.Combines.grows {n : Node} (h : n.Combines g) (hg : g.Grows g') : n.Combines g' := by
  obtain ⟨target, type, houtputs, htarget, hinputs⟩ := h
  exact ⟨target, type, houtputs, hg.type? htarget, fun e he => (hinputs e he).grows hg⟩

lemma Node.Samples.grows {n : Node} (h : n.Samples samplerType g) (hg : g.Grows g') :
    n.Samples samplerType g' := by
  obtain ⟨unit, sampler, uv, hsampler, huv, hoperand, htype⟩ := h
  refine ⟨unit, sampler, uv, hsampler, huv, ?_, hg.type? htype⟩
  exact (hg.operand? (by rw [hoperand, Option.isSome_some])).trans hoperand

/-- A well-typed node stays well typed. -/
lemma Node.WellTyped.grows {n : Node} (h : n.WellTyped samplerType g) (hg : g.Grows g') :
    n.WellTyped samplerType g' := by
  unfold WellTyped at h ⊢
  split at h
  · exact Combines.grows h hg
  · exact Combines.grows h hg
  · exact Combines.grows h hg
  · exact Samples.grows h hg
  · exact fun e he => (h e he).grows hg
  · trivial

/-- A combination that is well typed has fitting inputs. -/
lemma Node.WellTyped.combines {n : Node} (h : n.WellTyped samplerType g)
    (hkind : n.kind.isCombination = true) : n.Combines g := by
  unfold WellTyped at h
  cases hcase : n.kind
  all_goals rw [hcase] at h hkind
  all_goals first | exact h | cases hkind

/-- Other nodes are well typed whatever they are wired to. -/
lemma Node.wellTyped_of_not_isChecked {n : Node} (h : n.kind.isChecked = false) :
    n.WellTyped samplerType g := by
  unfold WellTyped
  cases hkind : n.kind
  all_goals first | trivial | (rw [hkind] at h; cases h)

lemma NodeKind.not_isChecked_of_not_isOperation (h : kind.isOperation = false) :
    kind.isChecked = false := by
  cases kind <;> first | rfl | cases h

/-! ## Well-typed graphs -/

namespace Graph

/-- What is registered is a variable of that name, all variables are named after their types, and all
nodes are well typed. -/
structure Typed (samplerType : Nat → String) (g : Graph) : Prop where
  registry : ∀ e ∈ g.registry.entries, ∃ v, g.declared? e.2 = some v ∧ v.name = e.1
  named : g.Only (NodeKind.Named samplerType)
  nodes : ∀ id n, g.node? id = some n → n.WellTyped samplerType g

/-- The graph has the nodes of the older one, which are what they were, and its names. -/
structure Enlarges (g g' : Graph) : Prop where
  grows : g.Grows g'
  names : ∀ name, (g.find? name).isSome → (g'.find? name).isSome

lemma Enlarges.refl (g : Graph) : Enlarges g g := ⟨.refl g, fun _ h => h⟩

lemma Enlarges.trans (h : Enlarges g g') (h' : Enlarges g' g'') : Enlarges g g'' :=
  ⟨h.grows.trans h'.grows, fun name hname => h'.names name (h.names name hname)⟩

/-- The graph without nodes is well typed. -/
lemma typed_ofStage (stage : Stage) : (ofStage stage).Typed samplerType := by
  refine ⟨by simp [ofStage], only_ofStage stage, fun id n hn => ?_⟩
  simp [ofStage, node?] at hn

namespace Typed

/-- Nodes and names decide whether a graph is well typed. -/
lemma congr (h : g.Typed samplerType) (hnodes : g'.nodes = g.nodes)
    (hregistry : g'.registry = g.registry) : g'.Typed samplerType ∧ g.Enlarges g' := by
  have hnode : ∀ id, g'.node? id = g.node? id := fun id => by rw [node?, hnodes, node?]
  have hgrows : g.Grows g' := fun id kind hkind => by rwa [kind?, hnode]
  refine ⟨⟨fun e he => ?_, fun id kind hkind => ?_, fun id n hn => ?_⟩, hgrows, fun name hname => ?_⟩
  · exact (h.registry e (hregistry ▸ he)).imp fun v hv => ⟨hgrows.declared? hv.1, hv.2⟩
  · rw [kind?, hnode] at hkind
    exact h.named id kind hkind
  · exact (h.nodes id n (hnode id ▸ hn)).grows hgrows
  · rwa [find?, hregistry]

/-- A variable is named after its type. -/
lemma named_of_declared? (h : g.Typed samplerType) {v : Variable} (hv : g.declared? id = some v) :
    v.Named samplerType := by
  obtain ⟨n, hn, hdeclared⟩ := Option.bind_eq_some_iff.1 hv
  refine h.named.of_node? hn v ?_
  cases hkind : n.kind with
  | var w =>
    rw [hkind] at hdeclared
    cases hdeclared
    rfl
  | _ =>
    rw [hkind] at hdeclared
    cases hdeclared

/-- What is found under a name is a variable of that name. -/
lemma find? (h : g.Typed samplerType) {name : String} (hfind : g.find? name = some id) :
    ∃ v, g.declared? id = some v ∧ v.name = name ∧ v.Named samplerType := by
  obtain ⟨front, back, hentries, -⟩ := List.lookup_eq_some_iff.1 hfind
  obtain ⟨v, hv, hname⟩ := h.registry (name, id) (hentries ▸ by simp)
  exact ⟨v, hv, hname, h.named_of_declared? hv⟩

/-- A new node of which nothing is asked. -/
lemma insert (h : g.Typed samplerType) (hkind : kind.Named samplerType)
    (hchecked : kind.isChecked = false) :
    (g.insert kind).2.Typed samplerType ∧ g.Enlarges (g.insert kind).2 := by
  have hgrows : g.Grows (g.insert kind).2 := (builds_insert g kind).grows
  refine ⟨⟨fun e he => ?_, h.named.insert hkind, fun id n hn => ?_⟩, hgrows, fun name hname => hname⟩
  · exact (h.registry e he).imp fun v hv => ⟨hgrows.declared? hv.1, hv.2⟩
  · rw [node?_insert] at hn
    split at hn
    · cases hn
      exact Node.wellTyped_of_not_isChecked hchecked
    · exact (h.nodes id n hn).grows hgrows

/-- A new variable. -/
lemma insertVariable (h : g.Typed samplerType) {v : Variable} (hv : v.Named samplerType) :
    (g.insertVariable v).2.Typed samplerType ∧ g.Enlarges (g.insertVariable v).2 ∧
      (g.insertVariable v).2.declared? (g.insertVariable v).1 = some v := by
  have hkind : (NodeKind.var v).Named samplerType := by
    rintro w ⟨⟩
    exact hv
  obtain ⟨hinserted, henlarges⟩ := h.insert hkind rfl
  have hnew := declared?_insertVariable g v
  have hgrows : g.Grows (g.insertVariable v).2 := henlarges.grows
  refine ⟨⟨fun e he => ?_, hinserted.named, hinserted.nodes⟩, ⟨hgrows, fun name hname => ?_⟩, hnew⟩
  · rcases Registry.mem_register he with he | rfl
    · exact hinserted.registry e he
    · exact ⟨v, hnew, rfl⟩
  · rw [Graph.find?, ← Registry.contains_eq_isSome] at hname ⊢
    exact (Registry.contains_register _).2 (.inr hname)

/-- A request for a variable whose name stands for its type, or that is found in any case. -/
lemma answered (h : g.Typed samplerType) {v : Variable} {answer : NodeId × Graph}
    (ha : g.Answered v answer)
    (hv : v.Named samplerType ∨ (v.cls ≠ .uniform ∧ (g.find? v.name).isSome)) :
    answer.2.Typed samplerType ∧ g.Enlarges answer.2 ∧ (answer.2.find? v.name).isSome ∧
      ∃ w, answer.2.declared? answer.1 = some w ∧ w.name = v.name ∧ w.Named samplerType := by
  have hmade : ∀ g' : Graph, g.Quiet g' → (v.cls ≠ .uniform → g.find? v.name = none) →
      (g'.insertVariable v).2.Typed samplerType ∧ g.Enlarges (g'.insertVariable v).2 ∧
        ((g'.insertVariable v).2.find? v.name).isSome ∧
          ∃ w, (g'.insertVariable v).2.declared? (g'.insertVariable v).1 = some w ∧
            w.name = v.name ∧ w.Named samplerType := by
    intro g' hquiet hfree
    have hnamed : v.Named samplerType := by
      refine hv.resolve_right fun ⟨hcls, hfound⟩ => ?_
      rw [hfree hcls] at hfound
      cases hfound
    obtain ⟨htyped, henlarges⟩ := h.congr hquiet.nodes hquiet.registry
    obtain ⟨hlast, hgrown, hnew⟩ := htyped.insertVariable hnamed
    refine ⟨hlast, henlarges.trans hgrown, ?_, v, hnew, rfl, hnamed⟩
    rw [Graph.find?, ← Registry.contains_eq_isSome]
    exact (Registry.contains_register _).2 (.inl rfl)
  cases ha with
  | found hquiet hfind =>
    obtain ⟨htyped, henlarges⟩ := h.congr hquiet.nodes hquiet.registry
    obtain ⟨w, hw, hname, hnamed⟩ := h.find? hfind
    refine ⟨htyped, henlarges, henlarges.names _ ?_, w, henlarges.grows.declared? hw, hname, hnamed⟩
    rw [hfind, Option.isSome_some]
  | made hquiet hfree => exact hmade _ hquiet hfree
  | @joined g' hquiet hfree =>
    obtain ⟨hlast, hgrown, hfound, hnew⟩ := hmade g' hquiet fun _ => hfree
    let g'' := (g'.insertVariable v).2.addVarying v.name (g'.insertVariable v).1
    obtain ⟨hjoined, henlarges⟩ : g''.Typed samplerType ∧ (g'.insertVariable v).2.Enlarges g'' :=
      hlast.congr rfl rfl
    exact ⟨hjoined, hgrown.trans henlarges, hfound, hnew⟩

/-- A new operation that is well typed. -/
lemma operation (h : g.Typed samplerType) {inputs : InputSet} {outputs : Outputs}
    (hkind : kind.isOperation = true)
    (htargets : ∀ target ∈ outputs.targets, (g.operand? target).isSome)
    (hnode : Node.WellTyped samplerType g
      { ({ id := g.size, kind : Node }.withInputs inputs) with outputs }) :
    (Builder.operation kind inputs outputs g).2.Typed samplerType ∧
      g.Enlarges (Builder.operation kind inputs outputs g).2 := by
  have hnew : g.size ∉ outputs.targets :=
    fun hmem => absurd (lt_size_of_operand? (htargets _ hmem)) (Nat.lt_irrefl _)
  have hnamed : kind.Named samplerType := by
    rintro v rfl
    cases hkind
  have honly : (Builder.operation kind inputs outputs g).2.Only _ :=
    Adds.operation hnamed g h.named
  have hkinds := @kind?_operation g kind inputs outputs hkind hnew
  obtain ⟨-, hframed, hnodes⟩ := @operation_effect g kind inputs outputs hkind hnew
  generalize (Builder.operation kind inputs outputs g).2 = g' at honly hkinds hframed hnodes
  have hgrows : g.Grows g' := .of_kind? hkinds
  refine ⟨⟨fun e he => ?_, honly, fun id n hn => ?_⟩, hgrows, fun name hname => ?_⟩
  · exact (h.registry e (hframed.registry ▸ he)).imp fun v hv => ⟨hgrows.declared? hv.1, hv.2⟩
  · rw [hnodes] at hn
    split at hn
    · cases hn
      exact hnode.grows hgrows
    · obtain ⟨m, hm, rfl⟩ := Option.map_eq_some_iff.1 hn
      by_cases hmem : id ∈ outputs.targets
      · have hoperation := isOperation_of_operand? (htargets id hmem) hm
        have hchecked := NodeKind.not_isChecked_of_not_isOperation hoperation
        exact Node.wellTyped_of_not_isChecked hchecked
      · -- what is no target keeps its wiring
        rw [List.count_eq_zero_of_not_mem hmem, Node.linked_zero]
        exact (h.nodes id m hm).grows hgrows
  · rwa [Graph.find?, hframed.registry]

/-- A comment, whether there is such a node or not. -/
lemma setComment (h : g.Typed samplerType) (id : NodeId) (text : String) :
    (g.setComment id text).Typed samplerType ∧ g.Enlarges (g.setComment id text) := by
  unfold Graph.setComment
  by_cases hid : id < g.size
  · have hrewires : Rewires g (g.modify id fun n => { n with comment := some ("//" ++ text) }) :=
      rewires_modify hid fun _ => rfl
    have hgrows : g.Grows (g.modify id fun n => { n with comment := some ("//" ++ text) }) :=
      fun j kind hj => (hrewires.kinds j).trans hj
    refine ⟨⟨fun e he => ?_, h.named.of_kinds hrewires.kinds, fun j n hn => ?_⟩, hgrows,
      fun name hname => ?_⟩
    · exact (h.registry e (hrewires.registry ▸ he)).imp
        fun v hv => ⟨hgrows.declared? hv.1, hv.2⟩
    · rw [node?_modify hid] at hn
      split at hn
      · obtain ⟨m, hm, rfl⟩ := Option.map_eq_some_iff.1 hn
        exact (h.nodes j m hm).grows hgrows
      · exact (h.nodes j n hn).grows hgrows
    · rwa [Graph.find?, hrewires.registry]
  · rw [modify, if_neg hid]
    exact h.congr rfl rfl

end Typed

end Graph

/-! ## Facts about types -/

/-- A fact about types that lasts while building goes on. -/
inductive TypeFact where
  /-- The node is an operand of the type. -/
  | typed (id : NodeId) (type : String)
  /-- The node is an operand that functions take. -/
  | passes (id : NodeId)
  /-- The node is the sampler of the texture unit. -/
  | sampler (id : NodeId) (unit : Nat)
  /-- The texture unit has a sampler. -/
  | bound (unit : Nat)

namespace TypeFact

/-- The fact holds of the graph. -/
def Holds (samplerType : Nat → String) (g : Graph) : TypeFact → Prop
  | typed id type => g.type? id = some type
  | passes id => ∃ o, g.operand? id = some o ∧ o.Passes samplerType
  | sampler id unit => g.operand? id = some ⟨samplerName unit, some (samplerType unit)⟩
  | bound unit => (g.find? (samplerName unit)).isSome

/-- Facts last. -/
lemma Holds.enlarges {fact : TypeFact} (h : fact.Holds samplerType g) (hg : g.Enlarges g') :
    fact.Holds samplerType g' := by
  cases fact with
  | typed id type => exact hg.grows.type? h
  | passes id =>
    obtain ⟨o, ho, hpasses⟩ := h
    exact ⟨o, (hg.grows.operand? (by rw [ho, Option.isSome_some])).trans ho, hpasses⟩
  | sampler id unit =>
    have hoperand : g.operand? id = some ⟨samplerName unit, some (samplerType unit)⟩ := h
    rw [Holds, hg.grows.operand? (by rw [hoperand, Option.isSome_some])]
    exact hoperand
  | bound unit => exact hg.names _ h

/-- Functions take all the nodes. -/
def passesAll (ids : List NodeId) : List TypeFact := ids.map passes

@[simp] lemma passesAll_nil : passesAll [] = [] := rfl

@[simp] lemma passesAll_cons (id : NodeId) (ids : List NodeId) :
    passesAll (id :: ids) = passes id :: passesAll ids := rfl

@[simp] lemma passesAll_append (ids ids' : List NodeId) :
    passesAll (ids ++ ids') = passesAll ids ++ passesAll ids' := List.map_append

@[simp] lemma mem_passesAll {ids : List NodeId} : passes id ∈ passesAll ids ↔ id ∈ ids := by
  simp [passesAll]

/-- Fewer nodes are fewer facts. -/
lemma passesAll_subset {ids ids' : List NodeId} (h : ids ⊆ ids') : passesAll ids ⊆ passesAll ids' :=
  List.map_subset _ h

/-- All the nodes are of one type. -/
def typedAll (ids : List NodeId) (type : String) : List TypeFact := ids.map (typed · type)

@[simp] lemma typedAll_nil (type : String) : typedAll [] type = [] := rfl

@[simp] lemma typedAll_cons (id : NodeId) (ids : List NodeId) (type : String) :
    typedAll (id :: ids) type = typed id type :: typedAll ids type := rfl

@[simp] lemma typedAll_append (ids ids' : List NodeId) (type : String) :
    typedAll (ids ++ ids') type = typedAll ids type ++ typedAll ids' type := List.map_append

@[simp] lemma mem_typedAll {ids : List NodeId} {type type' : String} :
    typed id type ∈ typedAll ids type' ↔ id ∈ ids ∧ type' = type := by
  simp [typedAll, and_comm, eq_comm]

end TypeFact

/-! ## Builders -/

/-- In every well-typed graph where the needs hold, the builder leaves a larger graph that is well
typed, and what it gives holds afterwards. -/
def Types (samplerType : Nat → String) (needs : List TypeFact) (b : Builder α)
    (gives : α → List TypeFact) : Prop :=
  ∀ g : Graph, g.Typed samplerType → (∀ fact ∈ needs, fact.Holds samplerType g) →
    (b g).2.Typed samplerType ∧ g.Enlarges (b g).2 ∧
      ∀ fact ∈ gives (b g).1, fact.Holds samplerType (b g).2

namespace Types

open TypeFact

variable {needs : List TypeFact} {b : Builder α} {f : α → Builder β} {mid : α → List TypeFact}
  {gives : β → List TypeFact} {name type value : String}

/-- An answer without any request. -/
lemma pure {a : β} (hgives : gives a ⊆ needs) :
    Types samplerType needs (Pure.pure a : Builder β) gives :=
  fun g hg hneeds => ⟨hg, .refl g, fun fact hfact => hneeds fact (hgives hfact)⟩

/-- One builder after another: what the first one gives is there for the second one, with all that
was there before. -/
lemma bind (hb : Types samplerType needs b mid)
    (hf : ∀ a, Types samplerType (mid a ++ needs) (f a) gives) :
    Types samplerType needs (b >>= f) gives := by
  intro g hg hneeds
  obtain ⟨hmid, henlarges, hgiven⟩ := hb g hg hneeds
  obtain ⟨hlast, henlarges', hgives⟩ := hf (b g).1 (b g).2 hmid fun fact hfact => by
    rcases List.mem_append.1 hfact with hfact | hfact
    · exact hgiven fact hfact
    · exact (hneeds fact hfact).enlarges henlarges
  exact ⟨hlast, henlarges.trans henlarges', hgives⟩

/-- What a builder may rely on lasts. -/
lemma frame {extra : List TypeFact} (hb : Types samplerType needs b mid) (hextra : extra ⊆ needs) :
    Types samplerType needs b fun a => extra ++ mid a := by
  intro g hg hneeds
  obtain ⟨hlast, henlarges, hgiven⟩ := hb g hg hneeds
  refine ⟨hlast, henlarges, fun fact hfact => ?_⟩
  rcases List.mem_append.1 hfact with hfact | hfact
  · exact (hneeds fact (hextra hfact)).enlarges henlarges
  · exact hgiven fact hfact

/-- Functions take data and flat samplers. -/
lemma passing (ids : List NodeId)
    (hids : ∀ id ∈ ids, .passes id ∈ needs ∨ (∃ type ∈ dataTypes, .typed id type ∈ needs) ∨
      ∃ unit, samplerType unit = "sampler2D" ∧ .sampler id unit ∈ needs)
    (hb : Types samplerType (passesAll ids ++ needs) b mid) : Types samplerType needs b mid := by
  refine fun g hg hneeds => hb g hg fun fact hfact => ?_
  rcases List.mem_append.1 hfact with hfact | hfact
  · obtain ⟨id, hid, rfl⟩ := List.mem_map.1 hfact
    rcases hids id hid with hpasses | ⟨type, htype, htyped⟩ | ⟨unit, hflat, hsampler⟩
    · exact hneeds _ hpasses
    · obtain ⟨o, ho, htyped⟩ := Option.bind_eq_some_iff.1 (hneeds _ htyped)
      exact ⟨o, ho, .inl ⟨type, htype, htyped⟩⟩
    · exact ⟨_, hneeds _ hsampler, .inr ⟨unit, rfl, hflat⟩⟩
  · exact hneeds fact hfact

/-! ### Variables -/

/-- A builder that asks for a variable by a word. -/
lemma of_answered {b : Builder NodeId} {v : Variable} (hb : ∀ g : Graph, g.Answered v (b g))
    (hname : HasType v.cls v.name v.type) :
    Types samplerType needs b fun id => [.typed id v.type] := by
  intro g hg _
  obtain ⟨hlast, henlarges, -, w, hw, hword, hnamed⟩ := hg.answered (hb g) (.inl (.inl hname))
  refine ⟨hlast, henlarges, List.forall_mem_singleton.2 ?_⟩
  rw [Holds, Graph.type?_of_declared? hw, hnamed.type_eq (hword ▸ hname)]

lemma uniform (hname : HasType .uniform name type) :
    Types samplerType needs (Builder.uniform type name) fun id => [.typed id type] :=
  of_answered (fun g => g.answered_uniform type name none) hname

lemma uniformArray (hname : HasType .uniform name type) (size : Nat) :
    Types samplerType needs (Builder.uniformArray type name size) fun id => [.typed id type] :=
  of_answered (fun g => g.answered_uniform type name (some size)) hname

lemma vertexAttribute (hname : HasType .attribute name type) :
    Types samplerType needs (Builder.vertexAttribute type name) fun id => [.typed id type] :=
  of_answered (fun g => g.answered_vertexAttribute type name) hname

lemma constant (hname : HasType .constant name type) :
    Types samplerType needs (Builder.constant type name value) fun id => [.typed id type] :=
  of_answered (fun g => g.answered_constant type name value) hname

lemma varying (hname : HasType .varying name type) :
    Types samplerType needs (Builder.varying type name) fun id => [.typed id type] :=
  of_answered (fun g => g.answered_varying type name) hname

/-- The sampler of a texture unit, which is asked for with its type, or has been asked for before. -/
lemma sampler {unit : Nat} (h : type = samplerType unit ∨ .bound unit ∈ needs) :
    Types samplerType needs (Builder.sampler type (samplerName unit)) fun id =>
      [.sampler id unit, .typed id (samplerType unit), .bound unit] := by
  intro g hg hneeds
  have hrequest := g.answered_sampler type (samplerName unit)
  obtain ⟨hlast, henlarges, hfound, w, hw, hname, hnamed⟩ := hg.answered hrequest
    (h.imp (fun htype => .inr (.inl ⟨unit, rfl, rfl, htype⟩))
      fun hbound => ⟨by simp, hneeds (.bound unit) hbound⟩)
  obtain ⟨-, htype⟩ := hnamed.eq_samplerType hname
  refine ⟨hlast, henlarges, fun fact hfact => ?_⟩
  simp only [List.mem_cons, List.not_mem_nil, or_false] at hfact
  rcases hfact with rfl | rfl | rfl
  · refine (Graph.operand?_of_declared? hw).trans ?_
    rw [hname, htype]
  · exact (Graph.type?_of_declared? hw).trans (congrArg some htype)
  · exact hfound

/-- A new variable. -/
lemma of_insertVariable {b : Builder NodeId}
    (hb : ∀ g : Graph, ∃ v : Variable, v.Named samplerType ∧ v.type = type ∧ b g = g.insertVariable v) :
    Types samplerType needs b fun id => [.typed id type] := by
  intro g hg _
  obtain ⟨v, hnamed, rfl, hrequest⟩ := hb g
  obtain ⟨hlast, henlarges, hnew⟩ := hg.insertVariable hnamed
  rw [hrequest]
  exact ⟨hlast, henlarges, List.forall_mem_singleton.2 (Graph.type?_of_declared? hnew)⟩

/-- A local under a temporary name. -/
lemma temporary (htype : type ∈ dataTypes) :
    Types samplerType needs (Builder.temporary type) fun id => [.typed id type] :=
  of_insertVariable fun g => ⟨{ cls := .temporary, type, name := g.registry.localName none },
    .inr (.inr ⟨letters_temporary g.registry.size, htype⟩), rfl, rfl⟩

/-- A local with a value. -/
lemma localValued (htype : type ∈ dataTypes) :
    Types samplerType needs (Builder.localValued type value) fun id => [.typed id type] :=
  of_insertVariable fun g =>
    ⟨{ cls := .temporary, type, name := g.registry.localName none, value := some value },
      .inr (.inr ⟨letters_temporary g.registry.size, htype⟩), rfl,
      congrArg (Prod.mk g.size) (g.setValue_insertVariable _ value)⟩

/-- A local under a wanted name, or the name with a number. -/
lemma localNamed (hname : HasType .temporary name type) :
    Types samplerType needs (Builder.localNamed type name) fun id => [.typed id type] :=
  of_insertVariable fun g => ⟨{ cls := .temporary, type, name := g.registry.localName (some name) },
    .inl (hname.localName g.registry), rfl, rfl⟩

/-- A local that is found under its name has the type of the name; otherwise it is what a builder
makes. -/
lemma orElse {make : Builder NodeId} (hname : HasType .temporary name type)
    (hmake : Types samplerType needs make fun id => [.typed id type]) :
    Types samplerType needs (Builder.orElse name make) fun id => [.typed id type] := by
  intro g hg hneeds
  rw [Builder.orElse_eq]
  cases hfind : g.find? name with
  | none => exact hmake g hg hneeds
  | some existing =>
    obtain ⟨v, hv, hword, hnamed⟩ := hg.find? hfind
    refine ⟨hg, .refl g, List.forall_mem_singleton.2 ?_⟩
    exact (Graph.type?_of_declared? hv).trans (congrArg some (hnamed.type_eq (hword ▸ hname)))

/-- What is found under a name, or else what a builder makes. -/
lemma orElseAny {make : Builder NodeId} (hmake : Types samplerType needs make fun _ => []) :
    Types samplerType needs (Builder.orElse name make) fun _ => [] := by
  have hfind : Types samplerType needs (Builder.find? name) fun _ => [] :=
    fun g hg _ => ⟨hg, .refl g, List.forall_mem_nil _⟩
  rw [Builder.orElse]
  refine hfind.bind fun found => ?_
  cases found with
  | none => exact hmake
  | some id => exact .pure (List.nil_subset _)

/-! ### Other nodes -/

/-- A built-in output. -/
lemma output (o : BuiltinOutput) :
    Types samplerType needs (Builder.node (.output o)) fun id => [.typed id o.glslType] := by
  intro g hg _
  have hkind : (NodeKind.output o).Named samplerType := by rintro v ⟨⟩
  obtain ⟨hlast, henlarges⟩ := hg.insert hkind rfl
  have hnode := Graph.node?_insert g (.output o) g.size
  rw [if_pos rfl] at hnode
  refine ⟨hlast, henlarges, List.forall_mem_singleton.2 ?_⟩
  change (((g.insert (.output o)).2.node? g.size).bind _).bind _ = _
  rw [hnode]
  rfl

/-- The node that names the program. -/
lemma programName : Types samplerType needs (Builder.programName name) fun _ => [] := by
  intro g hg _
  have hkind : (NodeKind.define "SHADER_NAME" name).Named samplerType := by rintro v ⟨⟩
  obtain ⟨hlast, henlarges⟩ := hg.insert hkind rfl
  exact ⟨hlast, henlarges, List.forall_mem_nil _⟩

/-- A comment. -/
lemma comment (id : NodeId) (text : String) :
    Types samplerType needs (Builder.comment id text) fun _ => [] := by
  intro g hg _
  obtain ⟨hlast, henlarges⟩ := hg.setComment id text
  exact ⟨hlast, henlarges, List.forall_mem_nil _⟩

/-! ### Operations -/

variable {inputs : InputSet} {outputs : Outputs} {target : NodeId}

/-- An operation that is well typed where the needs hold, and writes operands. -/
lemma operation (hkind : kind.isOperation = true)
    (htargets : ∀ target ∈ outputs.targets, ∃ type, .typed target type ∈ needs)
    (hnode : ∀ g : Graph, (∀ fact ∈ needs, fact.Holds samplerType g) →
      Node.WellTyped samplerType g
        { ({ id := g.size, kind : Node }.withInputs inputs) with outputs }) :
    Types samplerType needs (Builder.operation kind inputs outputs) fun _ => [] := by
  intro g hg hneeds
  have hwritten : ∀ target ∈ outputs.targets, (g.operand? target).isSome := by
    intro target htarget
    obtain ⟨type, htype⟩ := htargets target htarget
    exact Graph.isSome_operand?_of_type? (hneeds _ htype)
  obtain ⟨hlast, henlarges⟩ := hg.operation hkind hwritten (hnode g hneeds)
  exact ⟨hlast, henlarges, List.forall_mem_nil _⟩

/-- An operation that asks nothing of the types of its inputs. -/
lemma unchecked (hkind : kind.isOperation = true) (hchecked : kind.isChecked = false)
    (htargets : ∀ target ∈ outputs.targets, ∃ type, .typed target type ∈ needs) :
    Types samplerType needs (Builder.operation kind inputs outputs) fun _ => [] := by
  refine .operation hkind htargets fun g _ => Node.wellTyped_of_not_isChecked ?_
  exact (congrArg NodeKind.isChecked (Node.kind_withInputs _ inputs)).trans hchecked

/-- An operation that asks nothing of the types of its inputs and writes one operand. -/
lemma writes (type : String) {pin : String} (hkind : kind.isOperation = true)
    (hchecked : kind.isChecked = false) (htarget : .typed target type ∈ needs) :
    Types samplerType needs (Builder.operation kind inputs (.named [(pin, target)])) fun _ => [] := by
  refine .unchecked hkind hchecked fun t ht => ?_
  rw [List.mem_singleton.1 ht]
  exact ⟨type, htarget⟩

/-- A combination of nodes whose types fit that of the target. -/
lemma combine (type : String) {ids : List NodeId}
    (hkind : kind = .add ∨ kind = .mult ∨ kind = .setFromNode)
    (htarget : .typed target type ∈ needs)
    (hids : ∀ id ∈ ids, ∃ t ∈ combinable type, .typed id t ∈ needs) :
    Types samplerType needs (Builder.operation kind (.ofNodes ids) (.single target)) fun _ => [] := by
  have hoperation : kind.isOperation = true := by
    rcases hkind with rfl | rfl | rfl <;> rfl
  have htargets : ∀ t ∈ (Outputs.single target).targets, ∃ type, .typed t type ∈ needs := by
    intro t ht
    rw [List.mem_singleton.1 ht]
    exact ⟨type, htarget⟩
  refine .operation hoperation htargets fun g hneeds => ?_
  have hinputs : ∀ e ∈ ({ id := g.size, kind : Node }.withInputs (.ofNodes ids)).inputs,
      e.2.Fits g (combinable type) := by
    intro e he
    simp only [InputSet.ofNodes, Node.withInputs, List.nil_append, List.map_map, List.mem_map] at he
    obtain ⟨id, hid, rfl⟩ := he
    obtain ⟨t, ht, htyped⟩ := hids id hid
    exact ⟨id, rfl, t, ht, hneeds _ htyped⟩
  have hcombines : Node.Combines g { ({ id := g.size, kind : Node }.withInputs (.ofNodes ids)) with
      outputs := .single target } := ⟨target, type, rfl, hneeds _ htarget, hinputs⟩
  rcases hkind with rfl | rfl | rfl <;> exact hcombines

/-- A texture read with the sampler of a texture unit and texture coordinates. -/
lemma texture (type : String) (unit : Nat) {fetch : TextureFetch} {sampler uv : NodeId}
    (hsampler : .sampler sampler unit ∈ needs) (huv : .typed uv "vec2" ∈ needs)
    (htarget : .typed target type ∈ needs) :
    Types samplerType needs (Builder.operation (.texture fetch)
      (Pins.inputs [("sampler", sampler), ("uv", uv)]) (.named [("color", target)])) fun _ => [] := by
  refine .operation rfl (fun t ht => ?_) fun g hneeds => ?_
  · rw [List.mem_singleton.1 ht]
    exact ⟨type, htarget⟩
  · exact ⟨unit, sampler, uv, rfl, rfl, hneeds _ hsampler, hneeds _ huv⟩

/-- A function that receives shadows, with inputs that functions take. -/
lemma receive (type : String) {config : ShadowConfig} {pins : Pins} {pin : String}
    (hpins : passesAll (pins.map (·.2)) ⊆ needs) (htarget : .typed target type ∈ needs) :
    Types samplerType needs
      (Builder.operation (.shadowReceive config) pins.inputs (.named [(pin, target)])) fun _ => [] := by
  refine .operation rfl (fun t ht => ?_) fun g hneeds => ?_
  · rw [List.mem_singleton.1 ht]
    exact ⟨type, htarget⟩
  · have hinputs : ∀ e ∈ ({ id := g.size, kind := .shadowReceive config : Node }.withInputs
        pins.inputs).inputs, e.2.Passes samplerType g := by
      intro e he
      obtain ⟨id, hid, hsource⟩ := Serves.mem_inputs he
      exact ⟨id, hsource, hneeds _ (hpins (mem_passesAll.2 hid))⟩
    exact hinputs

end Types

end SceneShading
