import Mathlib.Tactic
import SceneShading.Proofs.Graph.Kinds
import SceneShading.Proofs.Graph.Naming
import SceneShading.Proofs.Graph.Traversal

/-!
# Attributes and morphs

The attributes of a vertex stage begin with a capital letter, and no other variable of it does
(`Variable.IsTold`). So what a builder finds under the name of an attribute is one, and a morph is
wired to attributes, whatever was built before (`Node.Blends`). In such a graph (`Graph.Woven`) a
node draws on the variables that inputs lead to from it (`Graph.Draws`).

`Weaves` judges builders by this. A builder may rely on names that are free when it starts, since a
variable that is found under a name draws on nothing in particular.
-/

namespace SceneShading

open Builder

/-! ## Names of attributes -/

/-- The name begins with a capital letter. -/
def IsCapital (name : String) : Prop := name.toList.head?.any Char.isUpper = true

/-- The name begins with a small letter. -/
def IsSmall (name : String) : Prop := name.toList.head?.any Char.isLower = true

instance (name : String) : Decidable (IsCapital name) := inferInstanceAs (Decidable (_ = _))

instance (name : String) : Decidable (IsSmall name) := inferInstanceAs (Decidable (_ = _))

variable {name type value : String}

/-- No letter is both small and a capital one. -/
lemma IsSmall.not_isCapital (h : IsSmall name) : ¬IsCapital name := by
  rw [IsSmall, Option.any_eq_true] at h
  rw [IsCapital, Option.any_eq_true]
  rintro ⟨c', hhead', hupper⟩
  obtain ⟨c, hhead, hlower⟩ := h
  obtain rfl : c = c' := Option.some.inj (hhead.symm.trans hhead')
  -- of the ranges of both, one ends before the other one begins
  have hfirst : 'a'.val ≤ c.val :=
    of_decide_eq_true (Bool.and_eq_true_iff.1 (hlower : (_ && _) = true)).1
  have hlast : c.val ≤ 'Z'.val :=
    (of_decide_eq_true (hupper : decide ('A'.val ≤ c.val ∧ c.val ≤ 'Z'.val) = true)).2
  exact absurd (UInt32.le_trans hfirst hlast) (by decide)

/-- What stands behind a name does not change how it begins. -/
lemma any_head?_append {p : Char → Bool} (h : name.toList.head?.any p = true) (behind : String) :
    (name ++ behind).toList.head?.any p = true := by
  rw [String.toList_append, List.head?_append]
  obtain ⟨c, hc, -⟩ := (Option.any_eq_true _ _).1 h
  rwa [hc, Option.some_or, ← hc]

lemma IsSmall.append (h : IsSmall name) (behind : String) : IsSmall (name ++ behind) :=
  any_head?_append h behind

lemma IsCapital.append (h : IsCapital name) (behind : String) : IsCapital (name ++ behind) :=
  any_head?_append h behind

/-- A local is named after the name that was wanted for it. -/
lemma IsSmall.localName (h : IsSmall name) (r : Registry) : IsSmall (r.localName (some name)) := by
  rw [Registry.localName]
  split
  · exact h.append _
  · exact h

/-- The text is on one line, and holds no directive. -/
def IsLine (text : String) : Prop := IsPlain text ∧ '\n' ∉ text.toList

instance (text : String) : Decidable (IsLine text) := inferInstanceAs (Decidable (_ ∧ _))

lemma IsLine.append {a b : String} (ha : IsLine a) (hb : IsLine b) : IsLine (a ++ b) := by
  refine ⟨isPlain_append.2 ⟨ha.1, hb.1⟩, ?_⟩
  rw [String.toList_append, List.mem_append]
  exact fun hmem => hmem.elim ha.2 hb.2

/-- A number is on one line. -/
lemma isLine_toString (n : Nat) : IsLine (toString n) := by
  refine ⟨isPlain_toString n, fun hmem => ?_⟩
  have hletter : '\n' ∈ letters (toString n) := List.mem_filter.2 ⟨hmem, rfl⟩
  rw [letters_toString] at hletter
  cases hletter

/-- Attributes begin with a capital letter, other variables do not. What is declared at file scope is on
one line; of varyings, the types are not known. An attribute that is declared with the first letter of the
position is the position or a target of it. -/
structure Variable.IsTold (v : Variable) : Prop where
  small : v.cls ≠ .attribute → IsSmall v.name
  capital : v.cls = .attribute → IsCapital v.name
  line : v.globalDeclaration.isSome → IsLine v.name ∧ (v.cls ≠ .varying → IsLine v.type)
  position : v.cls = .attribute → 'V' ∈ v.type.toList ∨ 'V' ∈ v.name.toList →
    v.type = "vec3" ∧ (v.name = "Vertex" ∨ ∃ rest, v.name = "Vertex_" ++ rest)

/-- A variable is named after its class. -/
def NodeKind.IsTold : NodeKind → Prop
  | .var v => v.IsTold
  | _ => True

/-- A variable with a small letter, which is no attribute. -/
lemma IsSmall.isTold {v : Variable} (h : IsSmall v.name) (hcls : v.cls ≠ .attribute)
    (hline : v.globalDeclaration.isSome → IsLine v.name ∧ (v.cls ≠ .varying → IsLine v.type)) :
    v.IsTold :=
  ⟨fun _ => h, fun h => absurd h hcls, hline, fun h => absurd h hcls⟩

/-- An attribute with a capital letter and without the first letter of the position. -/
lemma IsCapital.isTold (h : IsCapital name) (hline : IsLine name ∧ IsLine type)
    (hname : 'V' ∉ name.toList) (htype : 'V' ∉ type.toList) :
    Variable.IsTold { cls := .attribute, type, name } :=
  ⟨fun hcls => absurd rfl hcls, fun _ => h, fun _ => ⟨hline.1, fun _ => hline.2⟩,
    fun _ hmem => (hmem.elim htype hname).elim⟩

/-- The position, with a number behind it if it is a target. -/
lemma isTold_position (h : name = "Vertex" ∨ ∃ rest, name = "Vertex_" ++ rest)
    (hline : IsLine name) : Variable.IsTold { cls := .attribute, type := "vec3", name } := by
  have htype : IsLine "vec3" := by decide
  refine ⟨fun hcls => absurd rfl hcls, fun _ => ?_, fun _ => ⟨hline, fun _ => htype⟩,
    fun _ _ => ⟨rfl, h⟩⟩
  rcases h with rfl | ⟨rest, rfl⟩
  · exact of_decide_eq_true rfl
  · exact IsCapital.append (of_decide_eq_true rfl) rest

/-- A number behind a name brings no letter. -/
lemma not_mem_append_toString {c : Char} (hc : c.isDigit = false) (h : c ∉ name.toList) (n : Nat) :
    c ∉ (name ++ toString n).toList := by
  have hdigits : c ∉ (toString n).toList := by
    intro hmem
    have hletter : c ∈ letters (toString n) := List.mem_filter.2 ⟨hmem, by rw [hc]; rfl⟩
    rw [letters_toString] at hletter
    cases hletter
  rw [String.toList_append, List.mem_append]
  exact fun hmem => hmem.elim h hdigits

/-! ## Morphs -/

/-- The inputs of a node that is wired to pins. -/
def Pins.wired (pins : Pins) : List (Option String × Source) :=
  pins.map fun p => (some p.1, .node p.2)

namespace Graph

variable {g g' : Graph} {id : NodeId}

/-- The node is a vertex attribute. -/
def IsAttribute (g : Graph) (id : NodeId) : Prop :=
  ∃ v, g.declared? id = some v ∧ v.cls = .attribute

/-- Inputs lead from the node to the variable of a name. -/
def Draws (g : Graph) (id : NodeId) (name : String) : Prop :=
  ∃ other v, g.Reaches id other ∧ g.declared? other = some v ∧ v.name = name

/-- What is built on a graph leaves its inputs where they were. -/
lemma Builds.reaches (h : g.Builds g') {other : NodeId} (hreaches : g.Reaches id other) :
    g'.Reaches id other := by
  refine Relation.ReflTransGen.mono (fun a b hedge => ?_) _ _ hreaches
  obtain ⟨n, hn, hinput⟩ := hedge
  obtain ⟨more, hmore, -⟩ := h.nodes a n hn
  refine ⟨_, hmore, ?_⟩
  rw [Node.inputNodes, List.filterMap_append]
  exact List.mem_append_left _ hinput

end Graph

/-- The node blends the given number of targets into its output. All of them are attributes. -/
structure Node.Blends (count : Nat) (g : Graph) (n : Node) : Prop where
  positive : 0 < count
  output : ∃ out, n.outputs = .named [("out", out)] ∧ (g.operand? out).isSome
  inputs : ∃ (vertex weights : NodeId) (targets : Pins),
    n.inputs = Pins.wired ([("vertex", vertex), ("weights", weights)] ++ targets) ∧
      (g.operand? vertex).isSome ∧ (g.operand? weights).isSome ∧
        targets.map (·.1) = (List.range count).map targetPin ∧
          ∀ p ∈ targets, g.IsAttribute p.2

/-! ## The stage -/

namespace Graph

variable (g : Graph)

lemma stage_noteIf (condition : Bool) (n : Notice) : (g.noteIf condition n).stage = g.stage := by
  rw [noteIf]
  split <;> rfl

lemma stage_checkType (existing : NodeId) (name type : String) :
    (g.checkType existing name type).2.stage = g.stage := by
  rw [checkType]
  split
  · split <;> rfl
  · rfl

lemma stage_modify (id : NodeId) (f : Node → Node) : (g.modify id f).stage = g.stage := by
  rw [modify]
  split <;> rfl

/-- A request for a uniform leaves the stage as it is. -/
lemma stage_uniform (type name : String) (size : Option Nat) :
    (g.uniform type name size).2.stage = g.stage := by
  have hnoted := g.stage_noteIf name.isEmpty .unnamedUniform
  rw [uniform]
  generalize g.noteIf name.isEmpty .unnamedUniform = noted at hnoted
  cases noted.find? name with
  | none => exact hnoted
  | some existing =>
    have hchecked := noted.stage_checkType existing name type
    dsimp only
    split <;> exact hchecked.trans hnoted

/-- A request for a vertex attribute leaves the stage as it is. -/
lemma stage_vertexAttribute (type name : String) :
    (g.vertexAttribute type name).2.stage = g.stage := by
  have hnoted := g.stage_noteIf (g.stage = .fragment) (.attributeInFragment name)
  rw [vertexAttribute]
  generalize g.noteIf (g.stage = .fragment) (.attributeInFragment name) = noted at hnoted
  cases noted.find? name with
  | none => exact hnoted
  | some existing => exact (noted.stage_checkType existing name type).trans hnoted

/-- A request for a constant leaves the stage as it is. -/
lemma stage_constant (type name value : String) :
    (g.constant type name value).2.stage = g.stage := by
  rw [constant]
  cases g.find? name with
  | none =>
    have hset : ∀ (g : Graph) (id : NodeId), (g.setValue id value).stage = g.stage := by
      intro g id
      rw [setValue]
      split
      · rfl
      · split
        · exact g.stage_modify id _
        · rfl
    exact hset _ _
  | some existing => exact g.stage_checkType existing name type

/-- An operation leaves the stage as it is. -/
lemma stage_operation (kind : NodeKind) (inputs : InputSet) (outputs : Outputs) :
    (Builder.operation kind inputs outputs g).2.stage = g.stage := by
  have hlinked : ∀ (targets : List NodeId) (id : NodeId) (g : Graph),
      (targets.foldl (linkTarget id) g).stage = g.stage := by
    intro targets id
    induction targets with
    | nil => exact fun g => rfl
    | cons target targets ih =>
      intro g
      refine (ih _).trans ?_
      rw [linkTarget]
      split
      · exact g.stage_modify target _
      · rfl
  have hwired : ∀ (id : NodeId) (g : Graph), (g.wireOutputs id outputs).stage = g.stage := by
    intro id g
    rw [wireOutputs]
    split
    · rfl
    · split
      · rfl
      · exact (stage_modify _ id _).trans (hlinked outputs.targets id g)
  exact (hwired _ _).trans (stage_modify _ _ _)

end Graph

/-- A fact about a node of a vertex graph that lasts while building goes on. -/
inductive VertexFact where
  /-- The node is an operand. -/
  | operand (id : NodeId)
  /-- The node is a vertex attribute. -/
  | isAttribute (id : NodeId)
  /-- Inputs lead from the node to the variables of some names. -/
  | draws (id : NodeId) (names : List String)

/-- The fact holds of the graph. -/
def VertexFact.Holds (g : Graph) : VertexFact → Prop
  | operand id => (g.operand? id).isSome
  | isAttribute id => g.IsAttribute id
  | draws id names => ∀ name ∈ names, g.Draws id name

namespace Graph

variable {count : Nat} {g g' : Graph}

/-- The vertex graph refers to nothing missing, attributes are told from other variables by their names,
and morphs blend the given number of targets. -/
structure Woven (count : Nat) (g : Graph) : Prop where
  stage : g.stage = .vertex
  referential : g.Referential
  told : g.Only NodeKind.IsTold
  morphs : ∀ id n, g.node? id = some n → n.kind = .morph → n.Blends count g

/-- Attributes stay attributes. -/
lemma Builds.isAttribute {id : NodeId} (h : g.Builds g') (hid : g.IsAttribute id) :
    g'.IsAttribute id :=
  hid.imp fun _ hv => ⟨h.grows.declared? hv.1, hv.2⟩

/-- Facts last. -/
lemma Builds.vertexFact (h : g.Builds g') {fact : VertexFact} (hfact : fact.Holds g) :
    fact.Holds g' := by
  cases fact with
  | operand id => exact h.operand? hfact
  | isAttribute id => exact h.isAttribute hfact
  | draws id names =>
    intro name hname
    obtain ⟨other, v, hreaches, hv, hnamed⟩ := hfact name hname
    exact ⟨other, v, h.reaches hreaches, h.grows.declared? hv, hnamed⟩

/-- Blending goes on. -/
lemma Builds.blends (h : g.Builds g') {n : Node} (hn : n.Blends count g) : n.Blends count g' := by
  obtain ⟨hpositive, ⟨out, hout, hoperand⟩, vertex, weights, targets, hinputs, hvertex, hweights,
    hnames, htargets⟩ := hn
  exact ⟨hpositive, ⟨out, hout, h.operand? hoperand⟩, vertex, weights, targets, hinputs,
    h.operand? hvertex, h.operand? hweights, hnames, fun p hp => h.isAttribute (htargets p hp)⟩

/-- A graph that goes on from a woven one is woven, if its new nodes are named and wired well. -/
lemma Woven.builds (h : g.Woven count) (hstage : g'.stage = g.stage) (hbuilds : g.Builds g')
    (hreferential : g'.Referential) (htold : g'.Only NodeKind.IsTold)
    (hnew : ∀ id n, g'.node? id = some n → n.kind = .morph → (g.node? id).isSome ∨
      n.Blends count g') : g'.Woven count := by
  refine ⟨hstage.trans h.stage, hreferential, htold, fun id n hn hkind => ?_⟩
  rcases hnew id n hn hkind with hold | hblends
  · obtain ⟨m, hm⟩ := Option.isSome_iff_exists.1 hold
    obtain ⟨more, hmore, hsame⟩ := hbuilds.nodes id m hm
    rw [hn] at hmore
    cases hmore
    -- a morph is no operand, so it was left as it was
    have hmorph : m.kind = .morph := hkind
    rw [hsame (by rw [hmorph]; rfl), List.append_nil]
    exact hbuilds.blends (h.morphs id m hm hmorph)
  · exact hblends

/-- A graph with the same nodes. -/
lemma Woven.of_nodes (h : g.Woven count) (hstage : g'.stage = g.stage) (hnodes : g'.nodes = g.nodes)
    (hfault : g'.fault = g.fault) (hreferential : g'.Referential) : g'.Woven count := by
  have hnode : ∀ id, g'.node? id = g.node? id := fun id => by rw [node?, hnodes, node?]
  have hbuilds : g.Builds g' :=
    ⟨fun id n hn => ⟨[], by rw [hnode, hn, List.append_nil], fun _ => rfl⟩, hfault⟩
  refine h.builds hstage hbuilds hreferential (h.told.of_kinds fun id => by rw [kind?, hnode, kind?])
    fun id n hn _ => .inl ?_
  rw [← hnode]
  exact Option.isSome_of_eq_some hn

/-- A change of problems and journal. -/
lemma Woven.quiet (h : g.Woven count) (hstage : g'.stage = g.stage) (hquiet : g.Quiet g') :
    g'.Woven count :=
  h.of_nodes hstage hquiet.nodes hquiet.fault (hquiet.referential h.referential)

/-- A new node that is no morph. -/
lemma Woven.insert (h : g.Woven count) {kind : NodeKind} (htold : kind.IsTold)
    (hmorph : kind ≠ .morph) : (g.insert kind).2.Woven count := by
  refine h.builds rfl (g.builds_insert kind) (h.referential.insert kind) (h.told.insert htold)
    fun id n hn hkind => .inl ?_
  rw [node?_insert] at hn
  split at hn
  · cases hn
    exact absurd hkind hmorph
  · exact Option.isSome_of_eq_some hn

/-- A new variable. -/
lemma Woven.insertVariable (h : g.Woven count) {v : Variable} (hv : v.IsTold) :
    (g.insertVariable v).2.Woven count := by
  have htold : (NodeKind.var v).IsTold := hv
  exact (h.insert htold nofun).of_nodes rfl rfl rfl (h.referential.insertVariable v)

/-- What answers a request is told by its name. -/
lemma Woven.answered (h : g.Woven count) {v : Variable} {answer : NodeId × Graph}
    (ha : g.Answered v answer) (hstage : answer.2.stage = g.stage) (hv : v.IsTold) :
    answer.2.Woven count := by
  obtain ⟨hreferential, -, -⟩ := h.referential.answered ha
  cases ha with
  | found hquiet => exact h.quiet hstage hquiet
  | @made noted hquiet =>
    have hnoted : noted.Woven count := h.quiet hstage hquiet
    exact hnoted.insertVariable hv
  | @joined noted hquiet =>
    have hnoted : noted.Woven count := h.quiet hstage hquiet
    exact (hnoted.insertVariable hv).of_nodes rfl rfl rfl hreferential

/-- What answers a request has the name that was asked for. -/
lemma Referential.exists_answer (h : g.Referential) {v : Variable} {answer : NodeId × Graph}
    (ha : g.Answered v answer) : ∃ w, answer.2.declared? answer.1 = some w ∧ w.name = v.name := by
  cases ha with
  | found hquiet hfind =>
    obtain ⟨w, hw, hname⟩ := h.find? hfind
    exact ⟨w, hquiet.builds.grows.declared? hw, hname⟩
  | made => exact ⟨v, declared?_insertVariable _ v, rfl⟩
  | joined => exact ⟨v, declared?_insertVariable _ v, rfl⟩

/-- In a woven graph, variables are told by their names. -/
lemma Woven.isTold (h : g.Woven count) {id : NodeId} {v : Variable} (hv : g.declared? id = some v) :
    v.IsTold := by
  obtain ⟨n, hn, hdeclared⟩ := Option.bind_eq_some_iff.1 hv
  have htold := h.told.of_node? hn
  cases hkind : n.kind with
  | var w =>
    rw [hkind] at htold hdeclared
    cases hdeclared
    exact htold
  | _ => rw [hkind] at hdeclared; cases hdeclared

/-- In a woven graph, what has the name of an attribute is one. -/
lemma Woven.isAttribute (h : g.Woven count) {id : NodeId} {v : Variable}
    (hv : g.declared? id = some v) (hname : IsCapital v.name) : g.IsAttribute id := by
  refine ⟨v, hv, ?_⟩
  by_contra hcls
  exact ((h.isTold hv).small hcls).not_isCapital hname

/-- An operation that reads and writes operands. What it writes draws on what it reads. -/
lemma Woven.operation (h : g.Woven count) {kind : NodeKind} (hkind : kind.isOperation = true)
    (inputs : InputSet) (outputs : Outputs) (hinputs : ∀ input ∈ inputs.nodes, (g.operand? input).isSome)
    (houtputs : ∀ target ∈ outputs.targets, (g.operand? target).isSome)
    (hmorph : kind = .morph → Node.Blends count g
      { ({ id := g.size, kind : Node }.withInputs inputs) with outputs }) :
    let g' := (Builder.operation kind inputs outputs g).2
    g'.Woven count ∧ g.Builds g' ∧ ∀ target ∈ outputs.targets, ∀ input ∈ inputs.nodes,
      g'.Reaches target input := by
  intro g'
  have hnew : g.size ∉ outputs.targets :=
    fun hmem => absurd (lt_size_of_operand? (houtputs _ hmem)) (Nat.lt_irrefl _)
  have hoperated : Operated g g' kind inputs outputs := h.referential.operation hkind
    (fun input hinput => lt_size_of_operand? (hinputs input hinput)) houtputs
  have hnode : ∀ j, g'.node? j = _ := (operation_effect hkind hnew).2.2
  have htold : kind.IsTold := by
    cases kind with
    | var v => cases hkind
    | _ => trivial
  have hkept : ({ id := g.size, kind : Node }.withInputs inputs).kind = kind :=
    Node.kind_withInputs _ inputs
  refine ⟨h.builds (g.stage_operation kind inputs outputs) hoperated.builds hoperated.referential
    (Adds.operation htold g h.told) fun id n hn hmorphed => ?_, hoperated.builds,
    fun target htarget input hinput => ?_⟩
  · rw [hnode] at hn
    split at hn
    · cases hn
      exact .inr (hoperated.builds.blends (hmorph (hkept.symm.trans hmorphed)))
    · obtain ⟨m, hm, -⟩ := Option.map_eq_some_iff.1 hn
      exact .inl (Option.isSome_of_eq_some hm)
  · obtain ⟨m, hm, hlinked⟩ := hoperated.linked target htarget
    have hread : input ∈ ({ ({ id := g.size, kind : Node }.withInputs inputs) with
        outputs } : Node).inputNodes := by
      change input ∈ ({ id := g.size, kind : Node }.withInputs inputs).inputNodes
      rw [Node.inputNodes_withInputs _ inputs rfl]
      exact hinput
    exact .head ⟨m, hm, hlinked⟩ (.single ⟨_, hoperated.node, hread⟩)

end Graph

/-! ## Builders -/

/-- In every woven graph where some names are free and the needs hold, the builder goes on to a woven
graph, and what it gives holds afterwards. -/
def Weaves {α : Type} (count : Nat) (free : List String) (needs : List VertexFact) (b : Builder α)
    (gives : α → List VertexFact) : Prop :=
  ∀ g : Graph, g.Woven count → (∀ name ∈ free, g.find? name = none) →
    (∀ fact ∈ needs, fact.Holds g) →
      (b g).2.Woven count ∧ g.Builds (b g).2 ∧ ∀ fact ∈ gives (b g).1, fact.Holds (b g).2

namespace Weaves

open VertexFact

variable {α β : Type} {count : Nat} {free : List String} {needs needs' : List VertexFact}
  {b : Builder α} {f : α → Builder β} {mid mid' : α → List VertexFact}
  {gives : β → List VertexFact} {kind : NodeKind}

/-- An answer without any request. -/
lemma pure {a : β} (hgives : gives a ⊆ needs) :
    Weaves count free needs (Pure.pure a : Builder β) gives :=
  fun g hg _ hneeds => ⟨hg, .refl g, fun fact hfact => hneeds fact (hgives hfact)⟩

/-- One builder after another, where more is known of the first answer. What the first one gives is
there for the second one, with all that was there before, and some names are free still. -/
lemma bindOpen {p : α → Prop} {free' : List String} (hb : Weaves count free needs b mid)
    (hp : Answers b p) (hkept : ∀ g : Graph, (∀ name ∈ free, g.find? name = none) →
      ∀ name ∈ free', (b g).2.find? name = none)
    (hf : ∀ a, p a → Weaves count free' (mid a ++ needs) (f a) gives) :
    Weaves count free needs (b >>= f) gives := by
  intro g hg hfree hneeds
  obtain ⟨hmid, hbuilds, hgiven⟩ := hb g hg hfree hneeds
  obtain ⟨hlast, hbuilds', hgives⟩ := hf (b g).1 (hp g) (b g).2 hmid (hkept g hfree)
    fun fact hfact => (List.mem_append.1 hfact).elim (hgiven fact)
      fun hfact => hbuilds.vertexFact (hneeds fact hfact)
  exact ⟨hlast, hbuilds.trans hbuilds', hgives⟩

/-- One builder after another, where more is known of the first answer. -/
lemma bindAnswer {p : α → Prop} (hb : Weaves count free needs b mid) (hp : Answers b p)
    (hf : ∀ a, p a → Weaves count [] (mid a ++ needs) (f a) gives) :
    Weaves count free needs (b >>= f) gives :=
  bindOpen hb hp (fun _ _ => List.forall_mem_nil _) hf

/-- One builder after another. The first one may take names that were free. -/
lemma bind (hb : Weaves count free needs b mid)
    (hf : ∀ a, Weaves count [] (mid a ++ needs) (f a) gives) :
    Weaves count free needs (b >>= f) gives :=
  bindAnswer hb (.any b) fun a _ => hf a

/-- One builder after another, where the first one leaves the names free. -/
lemma bindFree (hb : Weaves count free needs b mid)
    (hkept : ∀ g : Graph, ∀ name ∈ free, g.find? name = none → (b g).2.find? name = none)
    (hf : ∀ a, Weaves count free (mid a ++ needs) (f a) gives) :
    Weaves count free needs (b >>= f) gives :=
  bindOpen hb (.any b) (fun g hfree name hname => hkept g name hname (hfree name hname))
    fun a _ => hf a

/-- A builder may rely on more and promise less. -/
lemma weaken (hb : Weaves count free needs' b mid') (hneeds : needs' ⊆ needs)
    (hgives : ∀ a, mid a ⊆ mid' a) : Weaves count free needs b mid := by
  intro g hg hfree hfacts
  obtain ⟨hlast, hbuilds, hgiven⟩ := hb g hg hfree fun fact hfact => hfacts fact (hneeds hfact)
  exact ⟨hlast, hbuilds, fun fact hfact => hgiven fact (hgives _ hfact)⟩

/-! ### Variables -/

/-- A builder that asks for a variable gives an operand. -/
lemma of_answered {b : Builder NodeId} {v : Variable} (hb : ∀ g : Graph, g.Answered v (b g))
    (hstage : ∀ g : Graph, (b g).2.stage = g.stage) (hv : v.IsTold) : Weaves count free needs b fun id => [.operand id] := by
  intro g hg _ _
  obtain ⟨-, hbuilds, hoperand⟩ := hg.referential.answered (hb g)
  exact ⟨hg.answered (hb g) (hstage g) hv, hbuilds, List.forall_mem_singleton.2 hoperand⟩

/-- A uniform. -/
lemma uniform (h : IsSmall name) (hline : IsLine name ∧ IsLine type) :
    Weaves count free needs (Builder.uniform type name) fun id => [.operand id] :=
  of_answered (fun g => g.answered_uniform type name none) (fun g => g.stage_uniform type name none)
    (IsSmall.isTold h nofun fun _ => ⟨hline.1, fun _ => hline.2⟩)

lemma uniformArray (h : IsSmall name) (hline : IsLine name ∧ IsLine type) (size : Nat) :
    Weaves count free needs (Builder.uniformArray type name size) fun id => [.operand id] :=
  of_answered (fun g => g.answered_uniform type name (some size))
    (fun g => g.stage_uniform type name (some size))
    (IsSmall.isTold h nofun fun _ => ⟨hline.1, fun _ => hline.2⟩)

/-- A constant. -/
lemma constant (h : IsSmall name) :
    Weaves count free needs (Builder.constant type name value) fun id => [.operand id] :=
  of_answered (fun g => g.answered_constant type name value)
    (fun g => g.stage_constant type name value) (IsSmall.isTold h nofun nofun)

/-- A vertex attribute is one, and draws on itself. -/
lemma vertexAttribute {names : List String} (hnames : names ⊆ [name])
    (h : Variable.IsTold { cls := .attribute, type, name }) :
    Weaves count free needs (Builder.vertexAttribute type name)
      fun id => [.operand id, .isAttribute id, .draws id names] := by
  intro g hg _ _
  have ha := g.answered_vertexAttribute type name
  have hwoven := hg.answered ha (g.stage_vertexAttribute type name) h
  obtain ⟨-, hbuilds, hoperand⟩ := hg.referential.answered ha
  obtain ⟨v, hv, hname⟩ := hg.referential.exists_answer ha
  have hattribute := hwoven.isAttribute hv (hname ▸ h.capital rfl)
  have hdraws : ∀ drawn ∈ names, (g.vertexAttribute type name).2.Draws
      (g.vertexAttribute type name).1 drawn := by
    intro drawn hdrawn
    rw [List.mem_singleton.1 (hnames hdrawn)]
    exact ⟨_, v, .refl, hv, hname⟩
  refine ⟨hwoven, hbuilds, fun fact hfact => ?_⟩
  simp only [List.mem_cons, List.not_mem_nil, or_false] at hfact
  rcases hfact with rfl | rfl | rfl
  · exact hoperand
  · exact hattribute
  · exact hdraws

/-- A new local. -/
lemma madeLocal {wanted : Option String} (h : ∀ r : Registry, IsSmall (r.localName wanted)) :
    Weaves count free needs (fun g => g.createVariable type wanted) fun id => [.operand id] := by
  intro g hg _ _
  obtain ⟨-, hbuilds, hoperand⟩ := hg.referential.madeVariable
    { cls := .temporary, type, name := g.registry.localName wanted }
  exact ⟨hg.insertVariable (IsSmall.isTold (h g.registry) nofun nofun), hbuilds,
    List.forall_mem_singleton.2 hoperand⟩

/-- A local under a wanted name. -/
lemma localNamed (h : IsSmall name) :
    Weaves count free needs (Builder.localNamed type name) fun id => [.operand id] :=
  madeLocal h.localName

/-- A local under a temporary name. -/
lemma temporary : Weaves count free needs (Builder.temporary type) fun id => [.operand id] :=
  madeLocal fun _ => IsSmall.append (by decide) _

/-- What is registered under a name, or else what a builder makes. It draws on what that is made of, if
the name is free. -/
lemma orElseDrawn {make : Builder NodeId} {names : List String}
    (h : Weaves count free needs make fun id => [.operand id, .draws id names])
    (hfree : name ∈ free ∨ names = []) :
    Weaves count free needs (Builder.orElse name make)
      fun id => [.operand id, .draws id names] := by
  intro g hg hnames hneeds
  rw [Builder.orElse_eq]
  cases hfind : g.find? name with
  | none => exact h g hg hnames hneeds
  | some existing =>
    have hnone : names = [] := hfree.resolve_left fun hname => by
      rw [hnames name hname] at hfind
      cases hfind
    refine ⟨hg, .refl g, List.forall_mem_cons.2 ⟨?_, List.forall_mem_singleton.2 ?_⟩⟩
    · exact Graph.isSome_operand? (hg.referential.isSome_of_find? hfind)
    · rw [hnone]
      exact List.forall_mem_nil _

/-- Every operand draws on nothing. -/
lemma drawnNothing {b : Builder NodeId} (h : Weaves count free needs b fun id => [.operand id]) :
    Weaves count free needs b fun id => [.operand id, .draws id []] := by
  intro g hg hfree hneeds
  obtain ⟨hlast, hbuilds, hgiven⟩ := h g hg hfree hneeds
  refine ⟨hlast, hbuilds, List.forall_mem_cons.2 ⟨hgiven _ List.mem_cons_self, ?_⟩⟩
  exact List.forall_mem_singleton.2 (List.forall_mem_nil _)

/-- What draws on something is an operand. -/
lemma operandOnly {b : Builder NodeId} {names : List String}
    (h : Weaves count free needs b fun id => [.operand id, .draws id names]) :
    Weaves count free needs b fun id => [.operand id] :=
  h.weaken (List.Subset.refl _) fun _ => by simp

/-- What is registered under a name, or else what a builder makes. -/
lemma orElse {make : Builder NodeId} (h : Weaves count free needs make fun id => [.operand id]) :
    Weaves count free needs (Builder.orElse name make) fun id => [.operand id] :=
  (orElseDrawn h.drawnNothing (.inr rfl)).operandOnly

/-! ### Other nodes -/

/-- A built-in output. -/
lemma output (o : BuiltinOutput) :
    Weaves count free needs (Builder.node (.output o)) fun id => [.operand id] := by
  intro g hg _ _
  have hnode := Graph.node?_insert g (.output o) g.size
  rw [if_pos rfl] at hnode
  refine ⟨hg.insert trivial nofun, g.builds_insert _, List.forall_mem_singleton.2 ?_⟩
  change (((g.insert (.output o)).2.node? g.size).bind _).isSome = true
  rw [hnode]
  rfl

/-- The node that names the program. -/
lemma programName : Weaves count free needs (Builder.programName name) fun _ => [] :=
  fun g hg _ _ => ⟨hg.insert trivial nofun, g.builds_insert _, List.forall_mem_nil _⟩

/-- An operation on operands that writes operands. -/
lemma operation {inputs : InputSet} {outputs : Outputs} (hkind : kind.isOperation = true)
    (hmorph : kind ≠ .morph) (hinputs : inputs.nodes.map operand ⊆ needs)
    (houtputs : outputs.targets.map operand ⊆ needs) :
    Weaves count free needs (Builder.operation kind inputs outputs) fun _ => [] := by
  intro g hg _ hneeds
  obtain ⟨hwoven, hbuilds, -⟩ := hg.operation hkind inputs outputs
    (fun input hinput => hneeds (.operand input) (hinputs (List.mem_map_of_mem hinput)))
    (fun target htarget => hneeds (.operand target) (houtputs (List.mem_map_of_mem htarget)))
    fun h => absurd h hmorph
  exact ⟨hwoven, hbuilds, List.forall_mem_nil _⟩

/-- An operation on pins that writes one operand. -/
lemma pins {pins : Pins} {pin : String} {target : NodeId} (hkind : kind.isOperation = true)
    (hmorph : kind ≠ .morph) (hpins : pins.map (fun p => operand p.2) ⊆ needs)
    (htarget : .operand target ∈ needs) :
    Weaves count free needs (Builder.operation kind pins.inputs (.named [(pin, target)]))
      fun _ => [] := by
  refine .operation hkind hmorph ?_ (List.cons_subset.2 ⟨htarget, List.nil_subset _⟩)
  rwa [Pins.nodes_inputs, List.map_map]

/-- What an operation on pins writes draws on what one of the pins draws on. -/
lemma drawn_operation {g : Graph} {pins : Pins} {source target : NodeId} {names : List String}
    (hg : g.Woven count) (hkind : kind.isOperation = true) (pin : String)
    (hmorph : kind = .morph → Node.Blends count g
      { ({ id := g.size, kind : Node }.withInputs pins.inputs) with
        outputs := .named [(pin, target)] })
    (hpins : ∀ p ∈ pins, (g.operand? p.2).isSome) (htarget : (g.operand? target).isSome)
    (hsource : source ∈ pins.map (·.2)) (hdraws : (draws source names).Holds g) :
    let g' := (Builder.operation kind pins.inputs (.named [(pin, target)]) g).2
    g'.Woven count ∧ g.Builds g' ∧ (draws target names).Holds g' := by
  have hread : ∀ input ∈ pins.inputs.nodes, (g.operand? input).isSome := by
    intro input hinput
    rw [Pins.nodes_inputs] at hinput
    obtain ⟨p, hp, rfl⟩ := List.mem_map.1 hinput
    exact hpins p hp
  obtain ⟨hwoven, hbuilds, hreaches⟩ := hg.operation hkind pins.inputs (.named [(pin, target)])
    hread (List.forall_mem_singleton.2 htarget) hmorph
  refine ⟨hwoven, hbuilds, fun name hname => ?_⟩
  obtain ⟨other, v, hdrawn, hv, hnamed⟩ := hdraws name hname
  have hfirst := hreaches target List.mem_cons_self source (by rwa [Pins.nodes_inputs])
  exact ⟨other, v, hfirst.trans (hbuilds.reaches hdrawn), hbuilds.grows.declared? hv, hnamed⟩

/-- An operation on pins that passes on what one of the pins draws on. -/
lemma pinsDrawn {pins : Pins} {pin : String} {target : NodeId} (source : NodeId)
    (names : List String) (hkind : kind.isOperation = true) (hmorph : kind ≠ .morph)
    (hpins : pins.map (fun p => operand p.2) ⊆ needs) (htarget : .operand target ∈ needs)
    (hsource : source ∈ pins.map (·.2)) (hdraws : .draws source names ∈ needs) :
    Weaves count free needs (Builder.operation kind pins.inputs (.named [(pin, target)]))
      fun _ => [.draws target names] := by
  intro g hg _ hneeds
  obtain ⟨hwoven, hbuilds, hdrawn⟩ := drawn_operation hg hkind pin
    (fun h => absurd h hmorph) (fun p hp => hneeds _ (hpins (List.mem_map.2 ⟨p, hp, rfl⟩)))
    (hneeds _ htarget) hsource (hneeds _ hdraws)
  exact ⟨hwoven, hbuilds, List.forall_mem_singleton.2 hdrawn⟩

/-- A morph of attributes, as many as there are to be blended. -/
lemma morph {vertex weights out : NodeId} {targets : Pins} (names : List String)
    (hpositive : 0 < count) (hnames : targets.map (·.1) = (List.range count).map targetPin)
    (hvertex : .operand vertex ∈ needs) (hweights : .operand weights ∈ needs)
    (htargets : targets.map (fun p => isAttribute p.2) ⊆ needs) (hout : .operand out ∈ needs)
    (hdraws : .draws vertex names ∈ needs) :
    Weaves count free needs (Builder.operation .morph
      (Pins.inputs ([("vertex", vertex), ("weights", weights)] ++ targets))
      (.named [("out", out)])) fun _ => [.draws out names] := by
  intro g hg _ hneeds
  have hattributes : ∀ p ∈ targets, g.IsAttribute p.2 :=
    fun p hp => hneeds _ (htargets (List.mem_map.2 ⟨p, hp, rfl⟩))
  have hoperands : ∀ p ∈ ([("vertex", vertex), ("weights", weights)] ++ targets : Pins),
      (g.operand? p.2).isSome := by
    refine List.forall_mem_append.2 ⟨List.forall_mem_cons.2 ⟨hneeds _ hvertex,
      List.forall_mem_singleton.2 (hneeds _ hweights)⟩, fun p hp => ?_⟩
    obtain ⟨v, hv, -⟩ := hattributes p hp
    exact Graph.isSome_operand? (Option.isSome_of_eq_some hv)
  have hkind : NodeKind.morph.isOperation = true := rfl
  obtain ⟨hwoven, hbuilds, hdrawn⟩ := drawn_operation hg hkind "out"
    (fun _ => ⟨hpositive, ⟨out, rfl, hneeds _ hout⟩, vertex, weights, targets, List.map_map,
      hneeds _ hvertex, hneeds _ hweights, hnames, hattributes⟩)
    hoperands (hneeds _ hout) List.mem_cons_self (hneeds _ hdraws)
  exact ⟨hwoven, hbuilds, List.forall_mem_singleton.2 hdrawn⟩

end Weaves

/-- Names stay free while a variable of another name is asked for. -/
lemma find?_of_answered {free : List String} {b : Builder NodeId} {v : Variable}
    (hb : ∀ g : Graph, g.Answered v (b g)) (hnew : v.name ∉ free) (g : Graph) :
    ∀ name ∈ free, g.find? name = none → (b g).2.find? name = none := by
  intro name hname hfree
  have hne : name ≠ v.name := fun heq => hnew (heq ▸ hname)
  have hregistered : ∀ (r : Registry) (id : NodeId), r.find? name = none →
      (r.register v.name id).find? name = none := by
    intro r id hnone
    have hnames : ∀ r : Registry, r.find? name = none ↔ name ∉ r.names := fun r => by
      rw [Registry.mem_names_iff, Registry.contains_eq_isSome, Bool.not_eq_true,
        Option.isSome_eq_false_iff, Option.isNone_iff_eq_none]
    rw [hnames] at hnone ⊢
    rw [Registry.names_register]
    split
    · exact hnone
    · simpa [hne] using hnone
  have ha := hb g
  generalize b g = answer at ha ⊢
  cases ha with
  | found hquiet => exact (hquiet.find? name).trans hfree
  | made hquiet => exact hregistered _ _ ((hquiet.find? name).trans hfree)
  | joined hquiet => exact hregistered _ _ ((hquiet.find? name).trans hfree)

end SceneShading
