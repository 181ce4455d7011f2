import Mathlib.Data.List.Forall2
import Mathlib.Data.Fintype.Card
import Mathlib.Logic.Equiv.Basic
import Mathlib.Tactic.FinCases
import SceneShading.Program.Compile

/-!
# Numbers of nodes do not matter

A graph refers to its nodes by number. Two graphs have one shape if a bijection of their nodes carries
the one into the other: kinds, inputs and outputs, the registry in its order, and the problems
recorded so far (`Graph.SameShape`). With equal comments, they are the same up to numbers
(`Graph.Renumbered`). Programs are shared between graphs that were built in different orders, so
their sources must not tell such graphs apart.

The two walks go side by side: what the one entered and left corresponds, entry by entry, to what
the other entered and left (`SameShape.visit`, by induction on the depth). So the nodes that take
part correspond in their order, and corresponding nodes have one statement
(`SameShape.checkedStatement_eq`), one declaration and one function. `Context.compile_renumbered`
collects these facts.
-/

namespace SceneShading

/-! ## Corresponding numbers -/

section Correspondence

variable (related : NodeId → NodeId → Prop)

/-- Named numbers with equal names and related numbers. -/
def RelatedPin (p q : String × NodeId) : Prop := p.1 = q.1 ∧ related p.2 q.2

/-- Sources with one text, or with related numbers. -/
inductive Source.Alike : Source → Source → Prop
  | node {a b : NodeId} (h : related a b) : Source.Alike (.node a) (.node b)
  | literal (text : String) : Source.Alike (.literal text) (.literal text)

/-- Outputs of one shape with related numbers. -/
inductive Outputs.Alike : Outputs → Outputs → Prop
  | none : Outputs.Alike .none .none
  | single {a b : NodeId} (h : related a b) : Outputs.Alike (.single a) (.single b)
  | named {pins pins' : List (String × NodeId)}
      (h : List.Forall₂ (RelatedPin related) pins pins') : Outputs.Alike (.named pins) (.named pins')

/-- Inputs with equal pins and alike sources. -/
def AlikeInput (e e' : Option String × Source) : Prop :=
  e.1 = e'.1 ∧ Source.Alike related e.2 e'.2

/-- Walks that entered and left related nodes in the same order. -/
structure Walk.Alike (w w' : Walk) : Prop where
  entered : List.Forall₂ related w.entered w'.entered
  order : List.Forall₂ related w.order w'.order

/-- Nodes of one kind whose wirings differ in numbers only, which are related. -/
structure Node.Alike (n n' : Node) : Prop where
  kind : n'.kind = n.kind
  inputs : List.Forall₂ (AlikeInput related) n.inputs n'.inputs
  outputs : Outputs.Alike related n.outputs n'.outputs

end Correspondence

namespace Graph

variable {g g' : Graph}

/-- The number that stands for a node in another graph; a number without a node corresponds to every
number without a node. -/
def Corresponds (e : Fin g.size ≃ Fin g'.size) (a b : NodeId) : Prop :=
  (∃ h : a < g.size, b = e ⟨a, h⟩) ∨ (g.size ≤ a ∧ g'.size ≤ b)

/-- The second graph is the first one with its nodes renumbered, and maybe with other comments. -/
structure SameShape (e : Fin g.size ≃ Fin g'.size) : Prop where
  stage : g'.stage = g.stage
  nodes : ∀ i : Fin g.size, Node.Alike (Corresponds e) g.nodes[i] g'.nodes[e i]
  registry : List.Forall₂ (RelatedPin (Corresponds e)) g.registry.entries g'.registry.entries
  diagnostics : g'.diagnostics = g.diagnostics

/-- The second graph is the first one with its nodes renumbered. -/
structure Renumbered (e : Fin g.size ≃ Fin g'.size) : Prop extends SameShape e where
  comments : ∀ i : Fin g.size, g'.nodes[e i].comment = g.nodes[i].comment

end Graph

/-! ## Lists of what is alike -/

/-- Functions that agree on related values agree on related lists. -/
lemma map_eq_of_related {α β : Type} {r : α → α → Prop} {f f' : α → β}
    (hf : ∀ a b, r a b → f' b = f a) {as bs : List α} (h : List.Forall₂ r as bs) :
    bs.map f' = as.map f := by
  induction h with
  | nil => rfl
  | cons hab _ ih => rw [List.map_cons, List.map_cons, hf _ _ hab, ih]

/-- Functions that agree on related values pick the same from related lists. -/
lemma filterMap_eq_of_related {α β : Type} {r : α → α → Prop} {f : α → Option β}
    (hf : ∀ a b, r a b → f b = f a) {as bs : List α} (h : List.Forall₂ r as bs) :
    bs.filterMap f = as.filterMap f := by
  have hmap := congrArg (List.filterMap id) (map_eq_of_related hf h)
  rwa [List.filterMap_map, List.filterMap_map] at hmap

/-- Entries are found at one key. -/
lemma lookup_related {related : NodeId → NodeId → Prop} {pins pins' : List (String × NodeId)}
    (h : List.Forall₂ (RelatedPin related) pins pins') (pin : String) :
    Option.Rel related (pins.lookup pin) (pins'.lookup pin) := by
  induction h with
  | nil => exact .none
  | @cons p q _ _ hpq _ ih =>
    obtain ⟨name, a⟩ := p
    obtain ⟨name', b⟩ := q
    obtain ⟨rfl, hab⟩ := hpq
    rw [List.lookup_cons, List.lookup_cons]
    cases pin == name with
    | true => exact .some hab
    | false => exact ih

/-- The first entries by key are related if the entries are and relation keeps the key. -/
lemma firstByKey_related {α : Type} {r : α → α → Prop} {key : α → String}
    (hkey : ∀ a b, r a b → key b = key a) (seen : List String) {as bs : List α}
    (h : List.Forall₂ r as bs) : List.Forall₂ r (firstByKey key seen as) (firstByKey key seen bs) := by
  induction h generalizing seen with
  | nil => exact .nil
  | @cons a b _ _ hab _ ih =>
    unfold firstByKey
    rw [hkey a b hab]
    split
    · exact ih seen
    · exact .cons hab (ih _)

/-- A value is in a list exactly if its related value is in the related list, if relation carries
equality with the one over to equality with the other. -/
lemma contains_related {r : NodeId → NodeId → Prop} {a b : NodeId}
    (heq : ∀ c d, r c d → (d = b ↔ c = a)) {as bs : List NodeId} (h : List.Forall₂ r as bs) :
    bs.contains b = as.contains a := by
  induction h with
  | nil => rfl
  | @cons c d _ _ hcd _ ih =>
    have hbeq : (b == d) = (a == c) := by
      rw [Bool.beq_eq_decide_eq, Bool.beq_eq_decide_eq]
      exact decide_eq_decide.2 (eq_comm.trans ((heq c d hcd).trans eq_comm))
    rw [List.contains_cons, List.contains_cons, hbeq, ih]

/-! ## Alike nodes -/

namespace Node.Alike

variable {related : NodeId → NodeId → Prop} {n n' : Node}

lemma typeName_eq (h : Node.Alike related n n') : n'.typeName = n.typeName :=
  congrArg NodeKind.typeName h.kind

/-- A pin is wired in both nodes or in none, and to alike sources. -/
lemma input? (h : Node.Alike related n n') (pin : String) :
    Option.Rel (Source.Alike related) (n.input? pin) (n'.input? pin) := by
  unfold Node.input?
  have hinputs := h.inputs
  generalize n.inputs = inputs at hinputs
  generalize n'.inputs = inputs' at hinputs
  induction hinputs with
  | nil => exact .none
  | @cons e e' _ _ hee _ ih =>
    rw [List.find?_cons, List.find?_cons, ← hee.1]
    cases e.1 == some pin with
    | true => exact .some hee.2
    | false => exact ih

lemma isSome_input? (h : Node.Alike related n n') (pin : String) :
    (n'.input? pin).isSome = (n.input? pin).isSome := by
  have hpin := h.input? pin
  revert hpin
  generalize n.input? pin = source
  generalize n'.input? pin = source'
  rintro (_ | _) <;> rfl

/-- The outputs of a pin are related. -/
lemma output? (h : Node.Alike related n n') (pin : String) :
    Option.Rel related (n.outputs.get? pin) (n'.outputs.get? pin) := by
  have houtputs := h.outputs
  revert houtputs
  generalize n.outputs = outputs
  generalize n'.outputs = outputs'
  rintro (_ | hab | hpins)
  · exact .none
  · exact .some hab
  · exact lookup_related hpins pin

lemma isSome_output? (h : Node.Alike related n n') (pin : String) :
    (n'.outputs.get? pin).isSome = (n.outputs.get? pin).isSome := by
  have hpin := h.output? pin
  revert hpin
  generalize n.outputs.get? pin = id
  generalize n'.outputs.get? pin = id'
  rintro (_ | _) <;> rfl

/-- The first outputs are related. -/
lemma first? (h : Node.Alike related n n') :
    Option.Rel related n.outputs.first? n'.outputs.first? := by
  have houtputs := h.outputs
  revert houtputs
  generalize n.outputs = outputs
  generalize n'.outputs = outputs'
  rintro (_ | hab | _ | ⟨hpq, -⟩)
  · exact .none
  · exact .some hab
  · exact .none
  · exact .some hpq.2

/-- All outputs are related. -/
lemma targets (h : Node.Alike related n n') :
    List.Forall₂ related n.outputs.targets n'.outputs.targets := by
  have houtputs := h.outputs
  revert houtputs
  generalize n.outputs = outputs
  generalize n'.outputs = outputs'
  rintro (_ | hab | hpins)
  · exact .nil
  · exact .cons hab .nil
  · exact List.rel_map (fun _ _ hpq => hpq.2) hpins

/-- The named outputs are related. -/
lemma pins (h : Node.Alike related n n') :
    List.Forall₂ (RelatedPin related) n.outputs.pins n'.outputs.pins := by
  have houtputs := h.outputs
  revert houtputs
  generalize n.outputs = outputs
  generalize n'.outputs = outputs'
  rintro (_ | _ | hpins)
  · exact .nil
  · exact .nil
  · exact hpins

/-- The nodes among the inputs are related. -/
lemma inputNodes (h : Node.Alike related n n') :
    List.Forall₂ related n.inputNodes n'.inputNodes := by
  refine List.rel_filterMap (fun e e' hee => ?_) h.inputs
  obtain ⟨pin, source⟩ := e
  obtain ⟨pin', source'⟩ := e'
  obtain ⟨-, hab | _⟩ := hee
  · exact .some hab
  · exact .none

/-- The pins of the inputs keep their names. -/
lemma pinnedInputs (h : Node.Alike related n n') :
    List.Forall₂ (fun e e' : String × Source => e.1 = e'.1 ∧ Source.Alike related e.2 e'.2)
      (Graph.pinnedInputs n) (Graph.pinnedInputs n') := by
  unfold Graph.pinnedInputs
  refine List.forall₂_iff_get.2 ⟨?_, fun i hi hi' => ?_⟩
  · rw [List.length_mapIdx, List.length_mapIdx, h.inputs.length_eq]
  · rw [List.length_mapIdx] at hi hi'
    have hee := h.inputs.get hi hi'
    simp only [List.get_eq_getElem, List.getElem_mapIdx] at hee ⊢
    exact ⟨by rw [hee.1], hee.2⟩

/-- Alike nodes have the same required pins, and the same ones are wired. -/
lemma validate_eq (h : Node.Alike related n n') : n'.validate = n.validate := by
  unfold Node.validate Node.missingInput? Node.missingOutput?
  simp only [h.kind, h.typeName_eq, ← Option.not_isSome, h.isSome_input?, h.isSome_output?]

lemma targetCount_eq (h : Node.Alike related n n') : n'.targetCount = n.targetCount := by
  unfold Node.targetCount
  simp only [h.isSome_input?]

lemma functionDeclaration_eq (h : Node.Alike related n n') :
    n'.functionDeclaration = n.functionDeclaration := by
  unfold Node.functionDeclaration Node.morphFunction
  rw [h.kind, h.targetCount_eq]

lemma defines_eq (h : Node.Alike related n n') : n'.defines = n.defines := by
  unfold Node.defines
  rw [h.kind]

lemma extensions_eq (h : Node.Alike related n n') : n'.extensions = n.extensions := by
  unfold Node.extensions
  rw [h.kind]

lemma defineKey_eq (h : Node.Alike related n n') : n'.defineKey = n.defineKey := by
  unfold Node.defineKey
  rw [h.kind, h.typeName_eq]

end Node.Alike

namespace Graph

variable {g g' : Graph} {e : Fin g.size ≃ Fin g'.size} {n n' : Node}

/-! ## Corresponding nodes -/

/-- Numbers that correspond to two numbers are equal exactly if those are, once one of them is the
number of a node. -/
lemma Corresponds.eq_iff {a a' b b' : NodeId} (h : Corresponds e a b) (h' : Corresponds e a' b')
    (hsize : a' < g.size) : b = b' ↔ a = a' := by
  rcases h' with ⟨_, rfl⟩ | ⟨hnone, -⟩
  · rcases h with ⟨ha, rfl⟩ | ⟨ha, hb⟩
    · rw [Fin.val_inj, e.injective.eq_iff, Fin.mk.injEq]
    · refine iff_of_false (fun heq => ?_) (fun heq => ?_)
      · exact absurd (heq ▸ (e ⟨a', hsize⟩).isLt) (Nat.not_lt.2 hb)
      · exact absurd (heq ▸ hsize) (Nat.not_lt.2 ha)
  · exact absurd hsize (Nat.not_lt.2 hnone)

/-- Corresponding numbers stand for related nodes, or both for none, if the bijection relates all
nodes. -/
lemma Corresponds.node? {r : Node → Node → Prop}
    (h : ∀ i : Fin g.size, r g.nodes[i] g'.nodes[e i]) {a b : NodeId} (hab : Corresponds e a b) :
    Option.Rel r (g.node? a) (g'.node? b) := by
  unfold Graph.node?
  rcases hab with ⟨ha, rfl⟩ | ⟨ha, hb⟩
  · rw [Array.getElem?_eq_getElem ha, Array.getElem?_eq_getElem (e ⟨a, ha⟩).isLt]
    exact .some (h ⟨a, ha⟩)
  · rw [Array.getElem?_eq_none ha, Array.getElem?_eq_none hb]
    exact .none

namespace SameShape

/-- A bijection relates graphs of one size. -/
lemma size_eq (e : Fin g.size ≃ Fin g'.size) : g'.size = g.size := by
  simpa using (Fintype.card_congr e).symm

/-- Corresponding numbers stand for alike nodes, or both for none. -/
lemma node? (h : SameShape e) {a b : NodeId} (hab : Corresponds e a b) :
    Option.Rel (Node.Alike (Corresponds e)) (g.node? a) (g'.node? b) :=
  hab.node? h.nodes

/-- Corresponding numbers stand for one operand. -/
lemma operand?_eq (h : SameShape e) {a b : NodeId} (hab : Corresponds e a b) :
    g'.operand? b = g.operand? a := by
  unfold Graph.operand?
  have hnode := h.node? hab
  revert hnode
  generalize g.node? a = node
  generalize g'.node? b = node'
  rintro (hn | _)
  · exact congrArg NodeKind.operand? hn.kind
  · rfl

/-! ## Walks side by side -/

/-- A visit in the one graph and the visit in the other enter and leave corresponding nodes. -/
lemma visit (h : SameShape e) (fuel : Nat) {a b : NodeId} (hab : Corresponds e a b) {w w' : Walk}
    (hw : Walk.Alike (Corresponds e) w w') :
    Walk.Alike (Corresponds e) (g.visit fuel a w) (g'.visit fuel b w') := by
  induction fuel generalizing a b w w' with
  | zero => exact hw
  | succ fuel ih =>
    unfold Graph.visit
    have hnode := h.node? hab
    cases hn : g.node? a with
    | none =>
      rw [hn] at hnode
      cases hn' : g'.node? b with
      | none => exact ⟨hw.entered, hw.order⟩
      | some n' => rw [hn'] at hnode; cases hnode
    | some n =>
      have ha : a < g.size := (Array.getElem?_eq_some_iff.1 hn).1
      rw [hn] at hnode
      cases hn' : g'.node? b with
      | none => rw [hn'] at hnode; cases hnode
      | some n' =>
        rw [hn', Option.rel_some_some] at hnode
        have hentered : w'.entered.contains b = w.entered.contains a :=
          contains_related (fun c d hcd => hcd.eq_iff hab ha) hw.entered
        simp only [hentered]
        split
        · exact hw
        · have hinputs : List.Forall₂ (Corresponds e) (n.inputNodes.filter (· ≠ a))
              (n'.inputNodes.filter (· ≠ b)) := by
            refine List.rel_filter (fun c d hcd => ?_) hnode.inputNodes
            simpa using not_congr (hcd.eq_iff hab ha).symm
          have hstep : ∀ v v', Walk.Alike (Corresponds e) v v' → ∀ c d, Corresponds e c d →
              Walk.Alike (Corresponds e) (g.visit fuel c v) (g'.visit fuel d v') :=
            fun _ _ hv _ _ hcd => ih hcd hv
          have hstart : Walk.Alike (Corresponds e) (w.enter a) (w'.enter b) :=
            ⟨.cons hab hw.entered, hw.order⟩
          have hinner := List.rel_foldl hstep hstart hinputs
          exact ⟨hinner.entered, List.rel_append hinner.order (.cons hab .nil)⟩

/-- The walks from corresponding roots list corresponding nodes in the same order. -/
lemma traverse (h : SameShape e) {roots roots' : List NodeId}
    (hroots : List.Forall₂ (Corresponds e) roots roots') :
    List.Forall₂ (Corresponds e) (g.walk roots).order (g'.walk roots').order := by
  have hwalks : Walk.Alike (Corresponds e) (g.walk roots) (g'.walk roots') := by
    unfold Graph.walk
    rw [size_eq e]
    have hstep : ∀ w w', Walk.Alike (Corresponds e) w w' → ∀ a b, Corresponds e a b →
        Walk.Alike (Corresponds e) (g.visit (g.size + 1) a w) (g'.visit (g.size + 1) b w') :=
      fun _ _ hw _ _ hab => h.visit _ hab hw
    exact List.rel_foldl hstep ⟨.nil, .nil⟩ hroots
  exact hwalks.order

/-- Corresponding numbers are those of alike nodes. -/
lemma nodesOf (h : SameShape e) {ids ids' : List NodeId}
    (hids : List.Forall₂ (Corresponds e) ids ids') :
    List.Forall₂ (Node.Alike (Corresponds e)) (g.nodesOf ids) (g'.nodesOf ids') :=
  List.rel_filterMap (fun _ _ hab => h.node? hab) hids

/-- The registered variables are alike. -/
lemma registered (h : SameShape e) :
    List.Forall₂ (Node.Alike (Corresponds e)) g.registered g'.registered :=
  List.rel_filterMap (fun _ _ hpq => h.node? hpq.2) h.registry

/-! ## The operands of corresponding nodes -/

lemma resolve_eq (h : SameShape e) {s s' : Source} (hs : Source.Alike (Corresponds e) s s')
    (nodeType pin : String) : g'.resolve nodeType s' pin = g.resolve nodeType s pin := by
  cases hs with
  | node hab =>
    unfold Graph.resolve
    simp only [h.operand?_eq hab]
  | literal text => rfl

lemma optionalInput_eq (h : SameShape e) (hn : Node.Alike (Corresponds e) n n') (pin : String) :
    g'.optionalInput n' pin = g.optionalInput n pin := by
  unfold Graph.optionalInput
  have hpin := hn.input? pin
  rw [hn.typeName_eq]
  revert hpin
  generalize n.input? pin = source
  generalize n'.input? pin = source'
  rintro (hs | _)
  · simp only [h.resolve_eq hs]
  · rfl

lemma input_eq (h : SameShape e) (hn : Node.Alike (Corresponds e) n n') (pin : String) :
    g'.input n' pin = g.input n pin := by
  unfold Graph.input
  have hpin := hn.input? pin
  rw [hn.typeName_eq]
  revert hpin
  generalize n.input? pin = source
  generalize n'.input? pin = source'
  rintro (hs | _)
  · simp only [h.resolve_eq hs]
  · rfl

lemma output_eq (h : SameShape e) (hn : Node.Alike (Corresponds e) n n') (pin : String) :
    g'.output n' pin = g.output n pin := by
  unfold Graph.output
  have hpin := hn.output? pin
  rw [hn.typeName_eq]
  revert hpin
  generalize n.outputs.get? pin = id
  generalize n'.outputs.get? pin = id'
  rintro (hab | _)
  · simp only [h.resolve_eq (.node hab)]
  · rfl

lemma firstOutput_eq (h : SameShape e) (hn : Node.Alike (Corresponds e) n n') :
    g'.firstOutput n' = g.firstOutput n := by
  unfold Graph.firstOutput
  have hfirst := hn.first?
  rw [hn.typeName_eq]
  revert hfirst
  generalize n.outputs.first? = id
  generalize n'.outputs.first? = id'
  rintro (hab | _)
  · simp only [h.resolve_eq (.node hab)]
  · rfl

/-- The sources of the inputs resolve alike, one by one. -/
lemma resolved_eq (h : SameShape e) (hn : Node.Alike (Corresponds e) n n') :
    (pinnedInputs n').map (fun p => g'.resolve n'.typeName p.2 p.1) =
      (pinnedInputs n).map fun p => g.resolve n.typeName p.2 p.1 := by
  refine map_eq_of_related (fun p q hpq => ?_) hn.pinnedInputs
  rw [h.resolve_eq hpq.2, hn.typeName_eq, hpq.1]

lemma inputs_eq (h : SameShape e) (hn : Node.Alike (Corresponds e) n n') :
    g'.inputs n' = g.inputs n := by
  have hmapM : ∀ (g : Graph) (n : Node), g.inputs n =
      ((pinnedInputs n).map fun p => g.resolve n.typeName p.2 p.1).mapM id := by
    intro g n
    rw [List.mapM_map]
    rfl
  rw [hmapM, hmapM, h.resolved_eq hn]

lemma pin?_eq (h : SameShape e) (hn : Node.Alike (Corresponds e) n n') (pin : String) :
    g'.pin? n' pin = g.pin? n pin := by
  unfold Graph.pin?
  have hpin := lookup_related hn.pins pin
  rw [h.optionalInput_eq hn]
  revert hpin
  generalize n.outputs.pins.lookup pin = id
  generalize n'.outputs.pins.lookup pin = id'
  rintro (hab | _)
  · exact h.operand?_eq hab
  · rfl

/-! ## The statements of corresponding nodes -/

lemma callOf_eq (h : SameShape e) (hn : Node.Alike (Corresponds e) n n') (debug : Bool)
    (function : String) (target : Argument) (args : List Argument) :
    g'.callOf n' debug function target args = g.callOf n debug function target args := by
  have htargets : n'.outputs.targets.map g'.operand? = n.outputs.targets.map g.operand? :=
    map_eq_of_related (fun _ _ hab => h.operand?_eq hab) hn.targets
  have hinputs := congrArg (List.map Except.toOption) (h.resolved_eq hn)
  rw [List.map_map, List.map_map] at hinputs
  unfold Graph.callOf
  rw [htargets]
  exact congrArg _ (congrArg (fun inputs => if debug then some (CallNote.mk _ inputs) else none)
    hinputs)

lemma pieceOf_eq (h : SameShape e) (hn : Node.Alike (Corresponds e) n n') :
    g'.pieceOf n' = g.pieceOf n := by
  funext part
  unfold Graph.pieceOf
  rw [hn.typeName_eq]
  simp only [h.pin?_eq hn]

/-- Alike nodes have one statement. -/
lemma statement_eq (h : SameShape e) (hn : Node.Alike (Corresponds e) n n') (debug : Bool) :
    g'.statement debug n' = g.statement debug n := by
  have hinput := fun pin => h.input_eq hn pin
  have houtput := fun pin => h.output_eq hn pin
  have hcall := h.callOf_eq hn debug
  unfold Graph.statement
  rw [hn.kind]
  cases n.kind with
  | var | output | define => rfl
  | add | mult | setFromNode =>
    simp only [combination, h.firstOutput_eq hn, h.inputs_eq hn, hn.typeName_eq]
  | matrixMult | setAlpha => simp only [productOf, alphaOf, hinput, houtput]
  | inlineCode => simp only [snippetOf, h.pieceOf_eq hn]
  | preMultAlpha => simp only [premultiplyOf, hinput, houtput, h.optionalInput_eq hn]
  | function f =>
    cases f <;> simp only [functionOf, conversionOf, rangedOf, hinput, houtput, hcall]
  | texture | light => simp only [textureOf, lightOf, hinput, houtput, hcall]
  | morph => simp only [morphOf, hinput, houtput, hcall, hn.targetCount_eq]
  | skinning => simp only [skinningOf, hinput, houtput, hcall]
  | billboard | shadowReceive | shadowCast =>
    simp only [billboardOf, receiveOf, castOf, wholeInputs, hinput, houtput, hcall]

/-- Alike nodes have one statement or one problem. -/
lemma checkedStatement_eq (h : SameShape e) (hn : Node.Alike (Corresponds e) n n') (debug : Bool) :
    g'.checkedStatement debug n' = g.checkedStatement debug n := by
  unfold Graph.checkedStatement
  rw [hn.validate_eq, h.statement_eq hn]

/-! ## The blocks of a program -/

/-- Alike variables have one local block. -/
lemma localBlock_eq (h : SameShape e) : localBlock g' = localBlock g := by
  have hlocals : g'.registered.filterMap Node.localDeclaration =
      g.registered.filterMap Node.localDeclaration := by
    refine filterMap_eq_of_related (fun n n' hn => ?_) h.registered
    unfold Node.localDeclaration
    rw [hn.kind]
  unfold localBlock
  rw [hlocals]

/-- Alike nodes in the same order are assembled to one text. -/
lemma assemble_eq (h : SameShape e) {nodes nodes' : List Node}
    (hnodes : List.Forall₂ (Node.Alike (Corresponds e)) nodes nodes') (settings : Settings)
    (main : MainBody) : assemble settings g' nodes' main = assemble settings g nodes main := by
  have hglobals : nodes'.filterMap Node.globalDeclaration =
      nodes.filterMap Node.globalDeclaration := by
    refine filterMap_eq_of_related (fun n n' hn => ?_) hnodes
    unfold Node.globalDeclaration
    rw [hn.kind]
  have hfunctions : collectFunctions nodes' = collectFunctions nodes :=
    filterMap_eq_of_related (fun _ _ hn => hn.functionDeclaration_eq)
      (firstByKey_related (fun _ _ hn => hn.typeName_eq) [] hnodes)
  unfold assemble globalBlock
  rw [h.stage, hglobals, hfunctions, h.localBlock_eq]

lemma collectDefines_eq {related : NodeId → NodeId → Prop} {nodes nodes' : List Node}
    (hnodes : List.Forall₂ (Node.Alike related) nodes nodes') :
    collectDefines nodes' = collectDefines nodes := by
  have hfirst := firstByKey_related (fun _ _ hn => hn.defineKey_eq) [] hnodes
  unfold collectDefines
  rw [List.flatMap_def, List.flatMap_def, map_eq_of_related (fun _ _ hn => hn.defines_eq) hfirst]

lemma collectExtensions_eq {related : NodeId → NodeId → Prop} {nodes nodes' : List Node}
    (hnodes : List.Forall₂ (Node.Alike related) nodes nodes') :
    collectExtensions nodes' = collectExtensions nodes := by
  have hfirst := firstByKey_related (fun _ _ hn => hn.typeName_eq) [] hnodes
  unfold collectExtensions
  rw [List.flatMap_def, List.flatMap_def,
    map_eq_of_related (fun _ _ hn => hn.extensions_eq) hfirst]

end SameShape

namespace Renumbered

/-- Alike nodes with one comment. -/
def Twins (e : Fin g.size ≃ Fin g'.size) (n n' : Node) : Prop :=
  Node.Alike (Corresponds e) n n' ∧ n'.comment = n.comment

/-- Corresponding numbers are those of alike nodes with one comment. -/
lemma nodesOf_twins (h : Renumbered e) {ids ids' : List NodeId}
    (hids : List.Forall₂ (Corresponds e) ids ids') :
    List.Forall₂ (Twins e) (g.nodesOf ids) (g'.nodesOf ids') :=
  List.rel_filterMap (fun _ _ hab => hab.node? fun i => ⟨h.nodes i, h.comments i⟩) hids

/-- Alike nodes with their comments, in the same order, make one `main`. -/
lemma ofNodes_eq (h : Renumbered e) {nodes nodes' : List Node}
    (hnodes : List.Forall₂ (Twins e) nodes nodes') (debug : Bool) :
    MainBody.ofNodes g' debug nodes' = MainBody.ofNodes g debug nodes := by
  unfold MainBody.ofNodes
  induction hnodes with
  | nil => rfl
  | @cons n n' _ _ hn _ ih =>
    have hnode : MainBody.ofNode g' debug n' = MainBody.ofNode g debug n := by
      unfold MainBody.ofNode MainBody.linesOf Graph.statementNotices
      rw [h.checkedStatement_eq hn.1, hn.1.kind, hn.2]
    rw [List.foldr_cons, List.foldr_cons, ih, hnode]

end Renumbered

end Graph

namespace Context

open SceneShading.Graph

variable {g g' : Graph} {e : Fin g.size ≃ Fin g'.size}

/-- Compiling a graph with its nodes renumbered, from the renumbered roots, gives the same source,
hash and problems. -/
theorem compile_renumbered (ctx : Context) (h : Renumbered e) {roots roots' : List NodeId}
    (hroots : List.Forall₂ (Corresponds e) roots roots') :
    (ctx.compile g' roots').source = (ctx.compile g roots).source ∧
      (ctx.compile g' roots').hash = (ctx.compile g roots).hash ∧
      (ctx.compile g' roots').diagnostics = (ctx.compile g roots).diagnostics := by
  have hnodes := h.nodesOf (h.traverse hroots)
  have hmain := h.ofNodes_eq (h.nodesOf_twins (h.traverse hroots)) ctx.settings.debugNodes
  have hempty : roots'.isEmpty = roots.isEmpty := by cases hroots <;> rfl
  have hsource : (ctx.compile g' roots').source = (ctx.compile g roots).source := by
    unfold Context.compile compileStage
    simp only [hmain, h.assemble_eq hnodes, SameShape.collectDefines_eq hnodes,
      SameShape.collectExtensions_eq hnodes]
  refine ⟨hsource, congrArg Digest.ofText hsource, ?_⟩
  unfold Context.compile compileStage rootDiagnostics
  simp only [hmain, h.assemble_eq hnodes, SameShape.collectDefines_eq hnodes,
    SameShape.collectExtensions_eq hnodes, hempty, h.diagnostics]

/-- A fragment color set from a uniform, the uniform first. -/
def colored : Graph where
  stage := .fragment
  nodes := #[
    { id := 0, kind := .var { cls := .uniform, type := "vec4", name := "uColor" } },
    { id := 1, kind := .output .fragColor, inputs := [(none, .node 2)] },
    { id := 2, kind := .setFromNode, inputs := [(none, .node 0)], outputs := .single 1 }]
  registry := ⟨[("uColor", 0)]⟩

/-- The same fragment color, the uniform last. -/
def coloredLast : Graph where
  stage := .fragment
  nodes := #[
    { id := 0, kind := .setFromNode, inputs := [(none, .node 2)], outputs := .single 1 },
    { id := 1, kind := .output .fragColor, inputs := [(none, .node 0)] },
    { id := 2, kind := .var { cls := .uniform, type := "vec4", name := "uColor" } }]
  registry := ⟨[("uColor", 2)]⟩

/-- The first and the last node change places. -/
def ends : Fin colored.size ≃ Fin coloredLast.size := (Equiv.swap 0 2 : Fin 3 ≃ Fin 3)

theorem corresponds_ends :
    Corresponds ends 0 2 ∧ Corresponds ends 1 1 ∧ Corresponds ends 2 0 :=
  ⟨.inl ⟨by decide, by decide⟩, .inl ⟨by decide, by decide⟩, .inl ⟨by decide, by decide⟩⟩

theorem renumbered_ends : Renumbered ends := by
  obtain ⟨hcolor, houtput, hset⟩ := corresponds_ends
  have hnodes : ∀ i : Fin 3, Node.Alike (Corresponds ends) colored.nodes[i]
      coloredLast.nodes[(ends i : Fin 3)] := by
    intro i
    fin_cases i
    · exact ⟨rfl, .nil, .none⟩
    · exact ⟨rfl, .cons ⟨rfl, .node hset⟩ .nil, .none⟩
    · exact ⟨rfl, .cons ⟨rfl, .node hcolor⟩ .nil, .single houtput⟩
  have hcomments : ∀ i : Fin 3,
      coloredLast.nodes[(ends i : Fin 3)].comment = colored.nodes[i].comment := by
    intro i
    fin_cases i <;> rfl
  exact ⟨⟨rfl, hnodes, .cons ⟨rfl, hcolor⟩ .nil, rfl⟩, hcomments⟩

/-- The two orders of the nodes compile to one source. -/
theorem compile_renumbered_ends :
    Renumbered ends ∧ List.Forall₂ (Corresponds ends) [1] [1] ∧
      (Context.compile {} coloredLast [1]).source = (Context.compile {} colored [1]).source ∧
      (Context.compile {} coloredLast [1]).hash = (Context.compile {} colored [1]).hash ∧
      (Context.compile {} coloredLast [1]).diagnostics =
        (Context.compile {} colored [1]).diagnostics := by
  have hroots : List.Forall₂ (Corresponds ends) [1] [1] := .cons corresponds_ends.2.1 .nil
  exact ⟨renumbered_ends, hroots, compile_renumbered {} renumbered_ends hroots⟩

end Context

end SceneShading
