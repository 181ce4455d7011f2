import Mathlib.Tactic
import SceneShading.Proofs.Codegen.Emission

/-!
# Required pins are all the pins that a statement needs

The pins that a kind of operation requires are listed in tables of their own, and the generator of
statements asks for pins where it needs them. Apart from combinations and snippets, which take any
pins, the two agree: if a node has all the pins that its tables require, then its statement never
lacks a pin, whatever the node is wired to and whatever else is wired to it. All that can stop the
generator is a wired pin that no operand stands at (`Graph.settles_statement`).

The graph is arbitrary, so nothing is known of the nodes at the pins. `Graph.Settles` says of a part
of the generator that it has a result or stops at such a pin; the lemmas for one kind of node ask for
the pins of its tables and for nothing else.
-/

namespace SceneShading

/-- The tables list the pins of the kind. Combinations take as many inputs as there are, and a
snippet names its pins itself. -/
def NodeKind.isTabled : NodeKind → Bool
  | add | mult | setFromNode | inlineCode _ => false
  | _ => true

variable {α β : Type}

namespace Graph

/-! ## Data -/

/-- The node is a variable or a built-in output. -/
def IsData (g : Graph) (id : NodeId) : Prop :=
  ∃ n, g.node? id = some n ∧ ((∃ v, n.kind = .var v) ∨ ∃ o, n.kind = .output o)

/-- The source is a literal, a variable or a built-in output. -/
def IsReadable (g : Graph) : Source → Prop
  | .node id => g.IsData id
  | .literal _ => True

variable {g : Graph} {n : Node} {pin : String}

/-- Data are the nodes that stand for operands. -/
lemma isSome_operand?_iff {id : NodeId} : (g.operand? id).isSome ↔ g.IsData id := by
  rw [operand?, IsData]
  cases g.node? id with
  | none => simp
  | some node =>
    obtain ⟨_, kind, _, _, _⟩ := node
    cases kind <;> simp [NodeKind.operand?]

/-! ## Parts of the generator -/

/-- A pin of the node is wired, but not to data. -/
def Blocks (g : Graph) (n : Node) (pin : String) : Prop :=
  (∃ source, n.input? pin = some source ∧ ¬g.IsReadable source) ∨
    ∃ id, n.outputs.get? pin = some id ∧ ¬g.IsData id

/-- There is a result, or a wired pin of the node is no operand. -/
def Settles (g : Graph) (n : Node) (x : Except Diagnostic α) : Prop :=
  (∃ a, x = .ok a) ∨ ∃ pin, g.Blocks n pin ∧ x = .error (.notAVariable n.typeName pin)

namespace Settles

variable {x : Except Diagnostic α}

/-- A result without any computation. -/
lemma pure (a : α) : g.Settles n (Pure.pure a : Except Diagnostic α) := .inl ⟨a, rfl⟩

/-- One computation after another. -/
lemma bind {f : α → Except Diagnostic β} (hx : g.Settles n x) (hf : ∀ a, g.Settles n (f a)) :
    g.Settles n (x >>= f) := by
  rcases hx with ⟨a, rfl⟩ | ⟨pin, hpin, rfl⟩
  · exact hf a
  · exact .inr ⟨pin, hpin, rfl⟩

/-- A computation with its result changed. -/
lemma map (f : α → β) (hx : g.Settles n x) : g.Settles n (f <$> x) := by
  rcases hx with ⟨a, rfl⟩ | ⟨pin, hpin, rfl⟩
  · exact .inl ⟨f a, rfl⟩
  · exact .inr ⟨pin, hpin, rfl⟩

/-- A computation for every entry of a list. -/
lemma mapM {l : List α} {f : α → Except Diagnostic β} (h : ∀ a ∈ l, g.Settles n (f a)) :
    g.Settles n (l.mapM f) := by
  induction l with
  | nil => exact .pure []
  | cons a l ih =>
    obtain ⟨hfirst, hrest⟩ := List.forall_mem_cons.1 h
    rw [List.mapM_cons]
    exact .bind hfirst fun b => .bind (ih hrest) fun bs => .pure (b :: bs)

end Settles

/-- A source of a pin is an operand, or the pin is no variable. -/
lemma resolve_cases (g : Graph) (nodeType : String) (source : Source) (pin : String) :
    (∃ o, g.resolve nodeType source pin = .ok o) ∨
      ¬g.IsReadable source ∧ g.resolve nodeType source pin = .error (.notAVariable nodeType pin) := by
  cases source with
  | literal text => exact .inl ⟨⟨text, none⟩, rfl⟩
  | node id =>
    rw [resolve, IsReadable, ← isSome_operand?_iff]
    cases g.operand? id with
    | some o => exact .inl ⟨o, rfl⟩
    | none => exact .inr ⟨by simp, rfl⟩

/-- A wired input pin. -/
lemma settles_input (hpin : (n.input? pin).isSome) : g.Settles n (g.input n pin) := by
  obtain ⟨source, hsource⟩ := Option.isSome_iff_exists.1 hpin
  rw [input, hsource]
  rcases g.resolve_cases n.typeName source pin with hok | ⟨hblocked, herror⟩
  · exact .inl hok
  · exact .inr ⟨pin, .inl ⟨source, hsource, hblocked⟩, herror⟩

/-- Any input pin, if it may be missing. -/
lemma settles_optionalInput (g : Graph) (n : Node) (pin : String) :
    g.Settles n (g.optionalInput n pin) := by
  rw [optionalInput]
  cases hsource : n.input? pin with
  | none => exact .pure none
  | some source =>
    have hpin : g.Settles n (g.input n pin) := settles_input (by rw [hsource]; rfl)
    rw [input, hsource] at hpin
    exact hpin.map some

/-- A wired output pin. -/
lemma settles_output (hpin : (n.outputs.get? pin).isSome) : g.Settles n (g.output n pin) := by
  obtain ⟨id, hid⟩ := Option.isSome_iff_exists.1 hpin
  rw [output, hid]
  rcases g.resolve_cases n.typeName (.node id) pin with hok | ⟨hblocked, herror⟩
  · exact .inl hok
  · exact .inr ⟨pin, .inr ⟨id, hid, hblocked⟩, herror⟩

/-- Wired input pins, as whole arguments. -/
lemma settles_wholeInputs {pins : List String} (hpins : ∀ pin ∈ pins, (n.input? pin).isSome) :
    g.Settles n (g.wholeInputs n pins) := by
  rw [wholeInputs]
  exact .mapM fun pin hpin => (settles_input (hpins pin hpin)).map Argument.whole

/-! ## Statements by kind -/

/-- The product of a matrix and a vector. -/
lemma settles_productOf (m : MatrixMult)
    (hinputs : ∀ pin ∈ ["vec", "matrix"], (n.input? pin).isSome)
    (houtput : (n.outputs.get? "vec").isSome) : g.Settles n (g.productOf n m) := by
  rw [productOf]
  refine .bind (settles_input (hinputs _ (by simp))) fun vec => ?_
  refine .bind (settles_input (hinputs _ (by simp))) fun matrix => ?_
  exact .bind (settles_output houtput) fun target => .pure _

/-- A color with another alpha. -/
lemma settles_alphaOf (hinputs : ∀ pin ∈ ["color", "alpha"], (n.input? pin).isSome)
    (houtput : (n.outputs.get? "color").isSome) : g.Settles n (g.alphaOf n) := by
  rw [alphaOf]
  refine .bind (settles_output houtput) fun target => ?_
  refine .bind (settles_input (hinputs _ (by simp))) fun color => ?_
  exact .bind (settles_input (hinputs _ (by simp))) fun alpha => .pure _

/-- A color times an alpha. Only the alpha may be missing. -/
lemma settles_premultiplyOf (hinput : (n.input? "color").isSome)
    (houtput : (n.outputs.get? "color").isSome) : g.Settles n (g.premultiplyOf n) := by
  rw [premultiplyOf]
  refine .bind (settles_output houtput) fun target => ?_
  refine .bind (settles_input hinput) fun color => ?_
  exact .bind (g.settles_optionalInput n "alpha") fun alpha => .pure _

/-- A function on colors or normals. -/
lemma settles_functionOf (debug : Bool) (f : ColorFunction)
    (hinputs : ∀ pin ∈ f.inputPins, (n.input? pin).isSome)
    (houtput : (n.outputs.get? f.outputPin).isSome) : g.Settles n (g.functionOf n debug f) := by
  have hfirst : ∀ {pin}, pin ∈ f.inputPins → g.Settles n (g.input n pin) :=
    fun hpin => settles_input (hinputs _ hpin)
  cases f with
  | normalize | frontNormal =>
    refine .bind (settles_output houtput) fun target => ?_
    exact .bind (hfirst (by simp [ColorFunction.inputPins])) fun vector => .pure _
  | srgbToLinear | linearToSrgb =>
    refine .bind (settles_output houtput) fun target => ?_
    exact .bind (hfirst (by simp [ColorFunction.inputPins])) fun color => .pure _
  | encodeRgbm | decodeRgbm =>
    refine .bind (settles_output houtput) fun target => ?_
    refine .bind (hfirst (by simp [ColorFunction.inputPins])) fun color => ?_
    exact .bind (hfirst (by simp [ColorFunction.inputPins])) fun range => .pure _

/-- A texture read. -/
lemma settles_textureOf (debug : Bool) (fetch : TextureFetch)
    (hinputs : ∀ pin ∈ texturePins, (n.input? pin).isSome)
    (houtput : (n.outputs.get? "color").isSome) : g.Settles n (g.textureOf n debug fetch) := by
  rw [textureOf]
  refine .bind (settles_output houtput) fun target => ?_
  refine .bind (settles_input (hinputs _ (by simp [texturePins]))) fun sampler => ?_
  exact .bind (settles_input (hinputs _ (by simp [texturePins]))) fun uv => .pure _

/-- The shading of a surface by a light. -/
lemma settles_lightOf (debug : Bool) (model : LightModel)
    (hinputs : ∀ pin ∈ model.pins.map (·.name), (n.input? pin).isSome)
    (houtput : (n.outputs.get? "color").isSome) : g.Settles n (g.lightOf n debug model) := by
  rw [lightOf]
  refine .bind (settles_output houtput) fun target => ?_
  refine .bind (.mapM fun pin hpin => ?_) fun args => .pure _
  exact (settles_input (hinputs pin.name (List.mem_map_of_mem hpin))).map _

/-- The blending of morph targets. Targets beyond the required one are read if they are wired. -/
lemma settles_morphOf (debug : Bool) (hinputs : ∀ pin ∈ morphPins, (n.input? pin).isSome)
    (houtput : (n.outputs.get? "out").isSome) : g.Settles n (g.morphOf n debug) := by
  rw [morphOf]
  refine .bind (settles_output houtput) fun target => ?_
  refine .bind (settles_input (hinputs _ (by simp [morphPins]))) fun weights => ?_
  refine .bind (settles_input (hinputs _ (by simp [morphPins]))) fun vertex => ?_
  refine .bind (.mapM fun i hi => ?_) fun targets => .pure _
  exact (settles_input (isSome_of_lt_targetCount (List.mem_range.1 hi))).map _

/-- The bone matrix of a vertex. -/
lemma settles_skinningOf (debug : Bool) (hinputs : ∀ pin ∈ skinningPins, (n.input? pin).isSome)
    (houtput : (n.outputs.get? "mat4").isSome) : g.Settles n (g.skinningOf n debug) := by
  rw [skinningOf]
  refine .bind (settles_output houtput) fun target => ?_
  refine .bind (settles_input (hinputs _ (by simp [skinningPins]))) fun weights => ?_
  refine .bind (settles_input (hinputs _ (by simp [skinningPins]))) fun bones => ?_
  exact .bind (settles_input (hinputs _ (by simp [skinningPins]))) fun palette => .pure _

/-- A function of whole arguments: billboards, shadows and their depths. -/
lemma settles_wholeCall (debug : Bool) (function : String) {pins : List String}
    (hinputs : ∀ pin ∈ pins, (n.input? pin).isSome) (houtput : (n.outputs.get? pin).isSome) :
    g.Settles n (do
      let target ← g.output n pin
      let args ← g.wholeInputs n pins
      return g.callOf n debug function (.whole target) args) := by
  refine .bind (settles_output houtput) fun target => ?_
  exact .bind (settles_wholeInputs hinputs) fun args => .pure _

/-- The pins that a shadow cast reads are required, with exponents and without. -/
lemma mem_castPins {config : ShadowConfig} (hpin : pin ∈ ["fragEye", "shadowDepthRange"] ++
    if config.usesExponents then ["exponent0", "exponent1"] else []) : pin ∈ castPins := by
  have hrequired : ["fragEye", "shadowDepthRange"] ++ ["exponent0", "exponent1"] ⊆ castPins := by
    simp [castPins]
  split at hpin
  · exact hrequired hpin
  · exact hrequired (List.mem_append_left _ (by simpa using hpin))

/-- **Required pins suffice**: the statement of a node that has them is made, unless a pin is wired
to something that is no operand. -/
theorem settles_statement (g : Graph) (debug : Bool) (n : Node) (htabled : n.kind.isTabled = true)
    (hvalid : n.validate = .ok ()) : g.Settles n (g.statement debug n) := by
  obtain ⟨hinputs, houtputs⟩ := n.validate_eq_ok_iff.1 hvalid
  rw [statement]
  generalize n.kind = kind at *
  cases kind with
  | var v => exact .pure none
  | output o => exact .pure none
  | define name value => exact .pure none
  | add => cases htabled
  | mult => cases htabled
  | setFromNode => cases htabled
  | inlineCode code => cases htabled
  | matrixMult m => exact (settles_productOf m hinputs (houtputs _ List.mem_cons_self)).map some
  | setAlpha => exact (settles_alphaOf hinputs (houtputs _ List.mem_cons_self)).map some
  | preMultAlpha =>
    exact (settles_premultiplyOf (hinputs _ List.mem_cons_self)
      (houtputs _ List.mem_cons_self)).map some
  | function f => exact (settles_functionOf debug f hinputs (houtputs _ List.mem_cons_self)).map some
  | texture fetch =>
    exact (settles_textureOf debug fetch hinputs (houtputs _ List.mem_cons_self)).map some
  | light model => exact (settles_lightOf debug model hinputs (houtputs _ List.mem_cons_self)).map some
  | morph => exact (settles_morphOf debug hinputs (houtputs _ List.mem_cons_self)).map some
  | skinning => exact (settles_skinningOf debug hinputs (houtputs _ List.mem_cons_self)).map some
  | billboard =>
    exact (settles_wholeCall debug _ hinputs (houtputs _ List.mem_cons_self)).map some
  | shadowReceive config =>
    exact (settles_wholeCall debug _ hinputs (houtputs _ List.mem_cons_self)).map some
  | shadowCast config =>
    refine (settles_wholeCall debug _ (fun pin hpin => hinputs pin ?_)
      (houtputs _ List.mem_cons_self)).map some
    exact mem_castPins hpin

/-! ## Nodes with all required pins -/

/-- A node has a statement exactly if it is an operation. -/
lemma isSome_of_statement {debug : Bool} {s : Option Statement} (h : g.statement debug n = .ok s) :
    s.isSome = n.kind.isOperation := by
  have hsome : ∀ {x : Except Diagnostic Statement}, some <$> x = .ok s → s.isSome = true := by
    intro x hx
    cases x with
    | error d => cases hx
    | ok statement =>
      cases hx
      rfl
  rw [statement] at h
  generalize n.kind = kind at *
  cases kind with
  | var v | output o | define name value =>
    cases h
    rfl
  | _ => exact hsome h

/-- Nothing blocks a node that is wired to data only. -/
lemma not_blocks (hinputs : ∀ e ∈ n.inputs, g.IsReadable e.2)
    (houtputs : ∀ id ∈ n.outputs.targets, g.IsData id) : ¬g.Blocks n pin := by
  rintro (⟨source, hsource, hblocked⟩ | ⟨id, hid, hblocked⟩)
  · obtain ⟨e, he, rfl⟩ := Option.map_eq_some_iff.1 hsource
    exact hblocked (hinputs e (List.mem_of_find?_eq_some he))
  · exact hblocked (houtputs id (Outputs.mem_targets_of_get? hid))

/-- **A validated node lacks no pin**: its statement never fails for a pin that is not wired. If all
inputs are literals, variables and built-in outputs, and all outputs are variables and built-in
outputs, then it does not fail at all. -/
theorem statement_of_validate (g : Graph) (debug : Bool) (n : Node)
    (htabled : n.kind.isTabled = true) (hvalid : n.validate = .ok ()) :
    (∀ nodeType pin, g.statement debug n ≠ .error (.missingInput nodeType pin) ∧
      g.statement debug n ≠ .error (.missingOutput nodeType pin)) ∧
    ((∀ e ∈ n.inputs, g.IsReadable e.2) → (∀ id ∈ n.outputs.targets, g.IsData id) →
      ∃ s, g.statement debug n = .ok s ∧ s.isSome = n.kind.isOperation) := by
  have hsettles := g.settles_statement debug n htabled hvalid
  refine ⟨fun nodeType pin => ?_, fun hinputs houtputs => ?_⟩
  · rcases hsettles with ⟨s, hs⟩ | ⟨blocked, -, herror⟩
    · simp [hs]
    · simp [herror]
  · obtain ⟨s, hs⟩ := hsettles.resolve_right fun ⟨pin, hblocks, _⟩ =>
      not_blocks hinputs houtputs hblocks
    exact ⟨s, hs, isSome_of_statement hs⟩

/-- A texture that is read at a literal place, into a built-in output. -/
def literalRead : Node :=
  { id := 2, kind := .texture .rgba, outputs := .single 1,
    inputs := [(some "sampler", .node 0), (some "uv", .literal "vec2(0.)")] }

/-- The sampler and the output of the texture read. -/
def literalReadGraph : Graph :=
  { stage := .fragment
    nodes := #[{ id := 0, kind := .var { cls := .sampler, type := "sampler2D", name := "Texture0" } },
      { id := 1, kind := .output .fragColor }, literalRead] }

theorem statement_of_validate_literalRead :
    literalRead.kind.isTabled = true ∧ literalRead.validate = .ok () ∧
      ∃ s, literalReadGraph.statement true literalRead = .ok s ∧ s.isSome = true := by
  have hvalid : literalRead.validate = .ok () := by decide
  refine ⟨rfl, hvalid, (literalReadGraph.statement_of_validate true literalRead rfl hvalid).2 ?_ ?_⟩
  · intro e he
    simp only [literalRead, List.mem_cons, List.not_mem_nil, or_false] at he
    rcases he with rfl | rfl
    · exact ⟨_, rfl, .inl ⟨_, rfl⟩⟩
    · exact trivial
  · intro id hid
    simp only [literalRead, Outputs.targets, List.mem_singleton] at hid
    subst hid
    exact ⟨_, rfl, .inr ⟨_, rfl⟩⟩

end Graph

end SceneShading
