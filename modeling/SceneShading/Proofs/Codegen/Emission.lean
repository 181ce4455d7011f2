import Mathlib.Tactic
import SceneShading.Codegen.Stage
import SceneShading.Proofs.Graph.Sound

/-!
# Statements of well-wired nodes

A node that is wired to variables and built-in outputs, and to all that its kind needs, becomes a
statement (`Node.WellWired.yields_statement`). Every operand that the statement names is the operand
of an input or of an output of the node. If the names and types of these are free of directives, then
the text of the statement is, too: what the generator adds are words of the language, and code of the
library.

The generator of statements can stop at every pin. `Yields` says that it does not, and what is known
of the result; the lemmas for one kind of node follow the pins of that kind.
-/

namespace SceneShading

variable {ε α β : Type}

/-! ## Results -/

/-- There is a result, and it has the property. -/
def Yields (x : Except ε α) (p : α → Prop) : Prop := ∃ a, x = .ok a ∧ p a

namespace Yields

variable {x : Except ε α} {f : α → Except ε β} {p : α → Prop} {q : β → Prop}

/-- A result without any computation. -/
lemma pure {b : β} (h : q b) : Yields (Pure.pure b : Except ε β) q := ⟨b, rfl, h⟩

/-- One computation after another. -/
lemma bind (hx : Yields x p) (hf : ∀ a, p a → Yields (f a) q) : Yields (x >>= f) q := by
  obtain ⟨a, rfl, ha⟩ := hx
  exact hf a ha

/-- A computation with its result changed. -/
lemma map {f : α → β} (hx : Yields x p) (hf : ∀ a, p a → q (f a)) : Yields (f <$> x) q := by
  obtain ⟨a, rfl, ha⟩ := hx
  exact ⟨f a, rfl, hf a ha⟩

/-- A computation for every entry of a list. -/
lemma mapM {l : List α} (h : ∀ a ∈ l, Yields (f a) q) :
    Yields (l.mapM f) fun bs => (∀ b ∈ bs, q b) ∧ bs.length = l.length := by
  induction l with
  | nil => exact ⟨[], rfl, by simp, rfl⟩
  | cons a l ih =>
    obtain ⟨hfirst, hrest⟩ := List.forall_mem_cons.1 h
    rw [List.mapM_cons]
    refine .bind hfirst fun b hb => .bind (ih hrest) fun bs hbs => .pure ?_
    exact ⟨List.forall_mem_cons.2 ⟨hb, hbs.1⟩, congrArg (· + 1) hbs.2⟩

end Yields

/-! ## Plain texts -/

/-- Plain texts with a plain text between them. -/
lemma isPlain_intercalate {separator : String} {texts : List String}
    (hseparator : IsPlain separator) (h : ∀ text ∈ texts, IsPlain text) :
    IsPlain (separator.intercalate texts) := by
  induction texts with
  | nil =>
    rw [String.intercalate_nil]
    decide
  | cons text texts ih =>
    obtain ⟨hfirst, hrest⟩ := List.forall_mem_cons.1 h
    cases texts with
    | nil =>
      rwa [String.intercalate_singleton]
    | cons other texts =>
      rw [String.intercalate_cons_cons, isPlain_append, isPlain_append]
      exact ⟨⟨hfirst, hseparator⟩, ih hrest⟩

/-- Plain texts one after another. -/
lemma isPlain_join {texts : List String} (h : ∀ text ∈ texts, IsPlain text) :
    IsPlain (String.join texts) := by
  intro c hc
  rw [String.toList_join, List.mem_flatMap] at hc
  obtain ⟨text, htext, hc⟩ := hc
  exact h text htext c hc

/-! ## Operands -/

namespace Outputs

variable {outputs : Outputs} {pin : String} {id : NodeId}

/-- The output of a pin is a target. -/
lemma mem_targets_of_get? (h : outputs.get? pin = some id) : id ∈ outputs.targets := by
  cases outputs with
  | none => cases h
  | single target =>
    cases h
    exact List.mem_cons_self
  | named pins =>
    obtain ⟨l, r, hpins, -⟩ := List.lookup_eq_some_iff.1 h
    rw [targets, hpins]
    simp

/-- The first output is a target. -/
lemma mem_targets_of_first? (h : outputs.first? = some id) : id ∈ outputs.targets := by
  cases outputs with
  | none => cases h
  | single target =>
    cases h
    exact List.mem_cons_self
  | named pins =>
    obtain ⟨p, hp, rfl⟩ := Option.map_eq_some_iff.1 h
    exact List.mem_map_of_mem (List.mem_of_mem_head? hp)

end Outputs

/-- The operands that a statement names. -/
def Statement.operands : Statement → List Operand
  | combine _ target first rest => target :: first :: rest
  | product _ target vec matrix => [target, vec, matrix]
  | snippet pieces => pieces.filterMap fun
    | .text _ => none
    | .pin _ o => some o
  | setAlpha target color alpha => [target, color, alpha]
  | premultiply target color alpha => [target, color, alpha]
  | frontNormal target normal => [target, normal]
  | call _ target args _ => target.operand :: args.map (·.operand)

/-- No text of the operand holds a directive. -/
structure Operand.IsPlain (o : Operand) : Prop where
  name : SceneShading.IsPlain o.name
  type : ∀ type ∈ o.type, SceneShading.IsPlain type

/-- The operand is that of an input or of an output of the node, and it is plain. -/
structure Operand.Of (g : Graph) (n : Node) (o : Operand) : Prop extends o.IsPlain where
  wired : ∃ id ∈ n.inputNodes ++ n.outputs.targets, g.operand? id = some o

/-- The statement names operands of the node only, and it is plain. -/
structure Statement.Of (g : Graph) (n : Node) (s : Statement) : Prop where
  operands : ∀ o ∈ s.operands, o.Of g n
  render : IsPlain s.render

namespace Graph

variable {g : Graph} {n : Node} {roots : List NodeId} {pin nodeType : String}

/-- No text of an operand of the graph holds a directive. -/
def PlainOperands (g : Graph) : Prop := ∀ id o, g.operand? id = some o → o.IsPlain

section Pins

variable (hplain : g.PlainOperands) (h : n.WellWired roots g)

include hplain h

/-- An input has an operand. -/
lemma yields_resolve {e : Option String × Source} (he : e ∈ n.inputs) (pin : String) :
    Yields (g.resolve nodeType e.2 pin) (Operand.Of g n) := by
  obtain ⟨id, hid, hsome⟩ := h.inputs e he
  obtain ⟨v, hv⟩ := Option.isSome_iff_exists.1 hsome
  obtain ⟨o, ho⟩ : ∃ o, g.operand? id = some o := ⟨_, operand?_of_declared? hv⟩
  have hmem : id ∈ n.inputNodes := List.mem_filterMap.2 ⟨e, he, by rw [hid, Source.node?]⟩
  refine ⟨o, ?_, ⟨hplain id o ho, id, List.mem_append_left _ hmem, ho⟩⟩
  rw [hid, resolve, ho]

/-- A wired input pin has an operand. -/
lemma yields_input (hpin : (n.input? pin).isSome) : Yields (g.input n pin) (Operand.Of g n) := by
  rw [input]
  cases hinput : n.input? pin with
  | none => simp [hinput] at hpin
  | some source =>
    obtain ⟨e, he, rfl⟩ := Option.map_eq_some_iff.1 hinput
    exact yields_resolve hplain h (List.mem_of_find?_eq_some he) pin

/-- An input pin has an operand if it is wired. -/
lemma yields_optionalInput (pin : String) :
    Yields (g.optionalInput n pin) fun o => ∀ operand ∈ o, operand.Of g n := by
  rw [optionalInput]
  cases hinput : n.input? pin with
  | none => exact .pure (by simp)
  | some source =>
    obtain ⟨e, he, rfl⟩ := Option.map_eq_some_iff.1 hinput
    refine (yields_resolve hplain h (List.mem_of_find?_eq_some he) pin).map fun o ho => ?_
    simpa using ho

/-- All inputs have operands. -/
lemma yields_inputs :
    Yields (g.inputs n) fun os => (∀ o ∈ os, o.Of g n) ∧ os.length = n.inputs.length := by
  have hlength : (pinnedInputs n).length = n.inputs.length := by
    rw [pinnedInputs, List.length_mapIdx]
  rw [inputs, ← hlength]
  refine .mapM fun e he => ?_
  obtain ⟨i, hi, rfl⟩ := List.mem_mapIdx.1 he
  exact yields_resolve hplain h (List.getElem_mem hi) _

/-- A target has an operand. -/
lemma yields_target {id : NodeId} (hid : id ∈ n.outputs.targets) (pin : String) :
    Yields (g.resolve nodeType (.node id) pin) (Operand.Of g n) := by
  obtain ⟨o, ho⟩ := Option.isSome_iff_exists.1 (h.outputs id hid).1
  refine ⟨o, ?_, ⟨hplain id o ho, id, List.mem_append_right _ hid, ho⟩⟩
  rw [resolve, ho]

/-- A wired output pin has an operand. -/
lemma yields_output (hpin : (n.outputs.get? pin).isSome) :
    Yields (g.output n pin) (Operand.Of g n) := by
  rw [output]
  cases houtput : n.outputs.get? pin with
  | none => simp [houtput] at hpin
  | some id =>
    exact yields_target hplain h (Outputs.mem_targets_of_get? houtput) pin

/-- The first output has an operand, if there is one. -/
lemma yields_firstOutput (hfirst : n.outputs.first?.isSome) :
    Yields (g.firstOutput n) (Operand.Of g n) := by
  rw [firstOutput]
  cases houtput : n.outputs.first? with
  | none => simp [houtput] at hfirst
  | some id =>
    exact yields_target hplain h (Outputs.mem_targets_of_first? houtput) "out"

/-- A bound pin of a snippet has an operand. -/
lemma pin?_of_bound
    (hpin : (n.outputs.pins.lookup pin).isSome ∨ (n.input? pin).isSome) :
    ∃ o, g.pin? n pin = some o ∧ o.Of g n := by
  rw [pin?]
  cases houtput : n.outputs.pins.lookup pin with
  | some id =>
    have hid : id ∈ n.outputs.targets := by
      cases htargets : n.outputs with
      | named pins =>
        rw [htargets] at houtput
        exact @Outputs.mem_targets_of_get? (.named pins) pin id houtput
      | _ => simp [htargets, Outputs.pins] at houtput
    have htarget : Yields (g.resolve n.typeName (.node id) pin) (Operand.Of g n) :=
      yields_target hplain h hid pin
    obtain ⟨o, ho, hof⟩ := htarget
    refine ⟨o, ?_, hof⟩
    rw [resolve] at ho
    cases hoperand : g.operand? id with
    | none => simp [hoperand] at ho
    | some operand =>
      rw [hoperand] at ho
      cases ho
      exact hoperand
  | none =>
    rw [houtput] at hpin
    obtain ⟨source, hsource⟩ := Option.isSome_iff_exists.1 (hpin.resolve_left (by simp))
    obtain ⟨o, ho, hof⟩ := yields_input hplain h (Option.isSome_iff_exists.2 ⟨source, hsource⟩)
    refine ⟨o, ?_, hof⟩
    rw [input, hsource] at ho
    simp only at ho
    rw [optionalInput, hsource]
    simp only
    rw [ho]
    rfl

end Pins

end Graph

/-! ## Texts of statements -/

/-- The operand of the argument is that of an input or of an output of the node, and its components
are plain. -/
structure Argument.Of (g : Graph) (n : Node) (a : Argument) : Prop where
  operand : a.operand.Of g n
  swizzle : IsPlain a.swizzle

namespace Argument

variable {g : Graph} {n : Node} {o : Operand}

/-- A whole operand. -/
lemma of_whole (h : o.Of g n) : (whole o).Of g n :=
  ⟨h, show IsPlain "" by decide⟩

/-- A color without its alpha. -/
lemma of_rgb (h : o.Of g n) : (rgb o).Of g n := by
  refine ⟨h, ?_⟩
  rw [rgb, Operand.rgbSwizzle]
  split
  · exact show IsPlain ".rgb" by decide
  · exact show IsPlain "" by decide

/-- The text of an argument is plain. -/
lemma Of.isPlain_render {a : Argument} (h : a.Of g n) : IsPlain a.render :=
  isPlain_append.2 ⟨h.operand.name, h.swizzle⟩

end Argument

namespace Statement

variable {g : Graph} {n : Node} {target : Operand}

/-- The alpha of an operand is plain. -/
lemma isPlain_alpha {o : Operand} (h : o.IsPlain) : IsPlain o.alpha := by
  refine isPlain_append.2 ⟨h.name, ?_⟩
  rw [Operand.alphaSwizzle]
  split <;> decide

/-- A combination of operands. -/
lemma of_combine {operator : String} (hoperator : IsPlain operator) (htarget : target.Of g n)
    {first : Operand} {rest : List Operand} (hoperands : ∀ o ∈ first :: rest, o.Of g n) :
    (combine operator target first rest).Of g n := by
  refine ⟨List.forall_mem_cons.2 ⟨htarget, hoperands⟩, ?_⟩
  have hswizzle : IsPlain (targetSwizzle target) := by
    rw [targetSwizzle]
    split <;> decide
  have hall : IsPlain (operator.intercalate
      ((first :: rest).map fun o => (combined target o).render)) := by
    refine isPlain_intercalate hoperator fun text htext => ?_
    obtain ⟨o, ho, rfl⟩ := List.mem_map.1 htext
    have hcombined : (combined target o).Of g n := by
      rw [combined]
      split
      · exact Argument.of_whole (hoperands o ho)
      · exact ⟨hoperands o ho, hswizzle⟩
    exact hcombined.isPlain_render
  rw [render]
  simp only [isPlain_append]
  exact ⟨⟨⟨htarget.name, by decide⟩, hall⟩, by decide⟩

/-- A product of a matrix and a vector. -/
lemma of_product (m : MatrixMult) (htarget : target.Of g n) {vec matrix : Operand}
    (hvec : vec.Of g n) (hmatrix : matrix.Of g n) : (product m target vec matrix).Of g n := by
  refine ⟨by simp [operands, htarget, hvec, hmatrix], ?_⟩
  have hhomogeneous : IsPlain (homogeneous m vec) := by
    have hcomplement : IsPlain m.role.complement := by
      cases m.role <;> decide
    rw [homogeneous]
    split
    · simp +decide [hvec.name, hcomplement]
    · exact hvec.name
  have hproduct : IsPlain (if m.inverse then homogeneous m vec ++ "*" ++ matrix.name
      else matrix.name ++ "*" ++ homogeneous m vec) := by
    split <;> simp +decide [hhomogeneous, hmatrix.name]
  have htype : IsPlain (target.type.getD "vec4") := by
    cases htype : target.type with
    | none => exact show IsPlain "vec4" by decide
    | some type => exact htarget.type type htype
  rw [render, renderProduct]
  generalize (if m.inverse then homogeneous m vec ++ "*" ++ matrix.name
    else matrix.name ++ "*" ++ homogeneous m vec) = text at hproduct
  generalize target.type.getD "vec4" = type at htype
  split <;> split <;> simp +decide [htarget.name, hvec.name, hproduct, htype]

/-- A snippet. -/
lemma of_snippet {pieces : List Piece} (h : ∀ piece ∈ pieces,
      IsPlain piece.render ∧ ∀ name o, piece = .pin name o → o.Of g n) :
    (snippet pieces).Of g n := by
  refine ⟨fun o ho => ?_, ?_⟩
  · obtain ⟨piece, hpiece, heq⟩ := List.mem_filterMap.1 ho
    cases piece with
    | text s => cases heq
    | pin name operand =>
      cases heq
      exact (h _ hpiece).2 name o rfl
  · rw [render]
    refine isPlain_join fun text htext => ?_
    obtain ⟨piece, hpiece, rfl⟩ := List.mem_map.1 htext
    exact (h piece hpiece).1

/-- The alpha of a color is set. -/
lemma of_setAlpha (htarget : target.Of g n) {color alpha : Operand} (hcolor : color.Of g n)
    (halpha : alpha.Of g n) : (setAlpha target color alpha).Of g n := by
  refine ⟨by simp [operands, htarget, hcolor, halpha], ?_⟩
  rw [render]
  simp +decide [htarget.name, hcolor.name, isPlain_alpha halpha.toIsPlain]

/-- A color is multiplied by an alpha. -/
lemma of_premultiply (htarget : target.Of g n) {color alpha : Operand} (hcolor : color.Of g n)
    (halpha : alpha.Of g n) : (premultiply target color alpha).Of g n := by
  refine ⟨by simp [operands, htarget, hcolor, halpha], ?_⟩
  rw [render]
  simp +decide [htarget.name, hcolor.name, isPlain_alpha halpha.toIsPlain]

/-- A normal is turned to the viewer. -/
lemma of_frontNormal (htarget : target.Of g n) {normal : Operand} (hnormal : normal.Of g n) :
    (frontNormal target normal).Of g n := by
  refine ⟨by simp [operands, htarget, hnormal], ?_⟩
  rw [render]
  simp +decide [htarget.name, hnormal.name]

end Statement

namespace CallNote

/-- The line of a pin is plain. -/
lemma isPlain_describe {o : Option Operand} (h : ∀ operand ∈ o, operand.IsPlain) :
    IsPlain (describe o) := by
  cases o with
  | none => exact show IsPlain "// undefined" by decide
  | some operand =>
    have hplain := h operand rfl
    obtain ⟨name, type⟩ := operand
    cases type with
    | none => simp +decide [describe, hplain.name]
    | some type => simp +decide [describe, hplain.name, hplain.type type rfl]

end CallNote

namespace Graph

variable {g : Graph} {n : Node} {roots : List NodeId} (hplain : g.PlainOperands)
  (h : n.WellWired roots g)

include hplain h

/-- What a node is wired to is described by plain lines. -/
lemma isPlain_callNote (named : Bool) : ∀ text ∈ CallNote.lines
    { outputs := n.outputs.targets.map g.operand?
      inputs := (pinnedInputs n).map fun e => (g.resolve n.typeName e.2 e.1).toOption } named,
      IsPlain text := by
  have houtputs : ∀ text ∈ (n.outputs.targets.map g.operand?).map CallNote.describe,
      IsPlain text := by
    intro text htext
    simp only [List.mem_map] at htext
    obtain ⟨o, ⟨id, -, rfl⟩, rfl⟩ := htext
    exact CallNote.isPlain_describe fun operand hoperand => hplain id operand hoperand
  have hinputs : ∀ text ∈ ((pinnedInputs n).map fun e =>
      (g.resolve n.typeName e.2 e.1).toOption).map CallNote.describe, IsPlain text := by
    intro text htext
    simp only [List.mem_map] at htext
    obtain ⟨o, ⟨e, he, rfl⟩, rfl⟩ := htext
    obtain ⟨i, hi, rfl⟩ := List.mem_mapIdx.1 he
    have hresolve : Yields (g.resolve n.typeName n.inputs[i].2 (pinName i n.inputs[i].1))
        (Operand.Of g n) := yields_resolve hplain h (List.getElem_mem hi) _
    obtain ⟨operand, heq, hof⟩ := hresolve
    rw [heq]
    exact CallNote.isPlain_describe fun _ hoperand => by
      cases hoperand
      exact hof.toIsPlain
  intro text htext
  rw [CallNote.lines, List.mem_append, List.mem_append] at htext
  rcases htext with (htext | htext) | htext
  · revert htext text
    decide
  · exact houtputs text htext
  · split at htext
    · rcases List.mem_cons.1 htext with rfl | htext
      · decide
      · exact hinputs text htext
    · cases htext

/-- A call of a library function. -/
lemma of_callOf (debug : Bool) {function : String} (hfunction : IsPlain function)
    {target : Argument} (htarget : target.Of g n) {args : List Argument}
    (hargs : ∀ a ∈ args, a.Of g n) : (g.callOf n debug function target args).Of g n := by
  have hcall : IsPlain (Statement.renderCall function target args) := by
    have hall : IsPlain (", ".intercalate (args.map Argument.render)) := by
      refine isPlain_intercalate (by decide) fun text htext => ?_
      obtain ⟨a, ha, rfl⟩ := List.mem_map.1 htext
      exact (hargs a ha).isPlain_render
    rw [Statement.renderCall]
    simp +decide [htarget.isPlain_render, hfunction, hall]
  refine ⟨?_, ?_⟩
  · rw [callOf, Statement.operands]
    refine List.forall_mem_cons.2 ⟨htarget.operand, fun o ho => ?_⟩
    obtain ⟨a, ha, rfl⟩ := List.mem_map.1 ho
    exact (hargs a ha).operand
  · cases debug with
    | false => exact hcall
    | true =>
      refine isPlain_intercalate (by decide) fun text htext => ?_
      rcases List.mem_append.1 htext with htext | htext
      · exact isPlain_callNote hplain h _ text htext
      · rw [List.mem_singleton.1 htext]
        exact hcall

/-! ## Statements by kind -/

/-- A combination has a statement if there is something to combine. -/
lemma yields_combination {operator : String} (hoperator : IsPlain operator)
    (hinputs : n.inputs ≠ []) (hfirst : n.outputs.first?.isSome) :
    Yields (g.combination n operator) (Statement.Of g n) := by
  rw [combination]
  refine .bind (yields_firstOutput hplain h hfirst) fun target htarget => ?_
  refine .bind (yields_inputs hplain h) fun operands hoperands => ?_
  cases operands with
  | nil => exact absurd (List.length_eq_zero_iff.1 hoperands.2.symm) hinputs
  | cons first rest => exact .pure (Statement.of_combine hoperator htarget hoperands.1)

/-- A product has a statement. -/
lemma yields_productOf (m : MatrixMult) (hinputs : ∀ pin ∈ ["vec", "matrix"], (n.input? pin).isSome)
    (houtputs : (n.outputs.get? "vec").isSome) :
    Yields (g.productOf n m) (Statement.Of g n) := by
  rw [productOf]
  refine .bind (yields_input hplain h (hinputs _ (by simp))) fun vec hvec => ?_
  refine .bind (yields_input hplain h (hinputs _ (by simp))) fun matrix hmatrix => ?_
  refine .bind (yields_output hplain h houtputs) fun target htarget => ?_
  exact .pure (Statement.of_product m htarget hvec hmatrix)

/-- A snippet has a statement if all pins that it mentions are bound. -/
lemma yields_snippetOf {code : String} (hcode : IsPlain code)
    (hpins : ∀ name, .pin name ∈ Snippet.parts code.toList →
      (n.outputs.pins.lookup (String.ofList name)).isSome ∨
        (n.input? (String.ofList name)).isSome) :
    Yields (g.snippetOf n code) (Statement.Of g n) := by
  have hpieces : Yields ((Snippet.parts code.toList).mapM (g.pieceOf n)) fun pieces =>
      (∀ piece ∈ pieces, IsPlain piece.render ∧ ∀ name o, piece = .pin name o → o.Of g n) ∧
        pieces.length = (Snippet.parts code.toList).length := by
    refine .mapM fun part hpart => ?_
    cases part with
    | text chars =>
      refine .pure ⟨?_, fun name o heq => by cases heq⟩
      -- the text is a part of the code
      intro c hc
      rw [Piece.render, String.toList_ofList] at hc
      refine hcode c ?_
      rw [← Snippet.text_parts code.toList]
      exact List.mem_flatMap.2 ⟨_, hpart, hc⟩
    | pin name =>
      obtain ⟨o, ho, hof⟩ := pin?_of_bound hplain h (hpins name hpart)
      refine ⟨.pin (String.ofList name) o, ?_, hof.name, fun _ _ heq => ?_⟩
      · rw [pieceOf, ho]
      · cases heq
        exact hof
  rw [snippetOf]
  exact .bind hpieces fun pieces h => .pure (Statement.of_snippet h.1)

/-- A color with another alpha has a statement. -/
lemma yields_alphaOf (hinputs : ∀ pin ∈ ["color", "alpha"], (n.input? pin).isSome)
    (houtputs : (n.outputs.get? "color").isSome) : Yields (g.alphaOf n) (Statement.Of g n) := by
  rw [alphaOf]
  refine .bind (yields_output hplain h houtputs) fun target htarget => ?_
  refine .bind (yields_input hplain h (hinputs _ (by simp))) fun color hcolor => ?_
  refine .bind (yields_input hplain h (hinputs _ (by simp))) fun alpha halpha => ?_
  exact .pure (Statement.of_setAlpha htarget hcolor halpha)

/-- A color with its alpha multiplied in has a statement. -/
lemma yields_premultiplyOf (hinputs : (n.input? "color").isSome)
    (houtputs : (n.outputs.get? "color").isSome) :
    Yields (g.premultiplyOf n) (Statement.Of g n) := by
  rw [premultiplyOf]
  refine .bind (yields_output hplain h houtputs) fun target htarget => ?_
  refine .bind (yields_input hplain h hinputs) fun color hcolor => ?_
  refine .bind (yields_optionalInput hplain h "alpha") fun alpha halpha => ?_
  refine .pure (Statement.of_premultiply htarget hcolor ?_)
  cases alpha with
  | none => exact hcolor
  | some operand => exact halpha operand rfl

/-- A conversion between color spaces has a statement. -/
lemma yields_conversionOf (debug : Bool) {function : String} (hfunction : IsPlain function)
    (hinputs : (n.input? "color").isSome) (houtputs : (n.outputs.get? "color").isSome) :
    Yields (g.conversionOf n debug function) (Statement.Of g n) := by
  rw [conversionOf]
  refine .bind (yields_output hplain h houtputs) fun target htarget => ?_
  refine .bind (yields_input hplain h hinputs) fun color hcolor => ?_
  have hswizzle : IsPlain (if target.type = color.type then "" else ".rgb") := by
    split <;> decide
  refine .pure (of_callOf hplain h debug hfunction ⟨htarget, hswizzle⟩ fun a ha => ?_)
  rw [List.mem_singleton.1 ha]
  exact ⟨hcolor, hswizzle⟩

/-- A function on a color and a range has a statement. -/
lemma yields_rangedOf (debug : Bool) {function : String} (hfunction : IsPlain function)
    {argument : Operand → Argument} (hargument : ∀ o, o.Of g n → (argument o).Of g n)
    (hinputs : ∀ pin ∈ ["color", "range"], (n.input? pin).isSome)
    (houtputs : (n.outputs.get? "color").isSome) :
    Yields (g.rangedOf n debug function argument) (Statement.Of g n) := by
  rw [rangedOf]
  refine .bind (yields_output hplain h houtputs) fun target htarget => ?_
  refine .bind (yields_input hplain h (hinputs _ (by simp))) fun color hcolor => ?_
  refine .bind (yields_input hplain h (hinputs _ (by simp))) fun range hrange => ?_
  refine .pure (of_callOf hplain h debug hfunction (Argument.of_whole htarget) ?_)
  exact List.forall_mem_cons.2 ⟨hargument color hcolor,
    List.forall_mem_singleton.2 (Argument.of_whole hrange)⟩

/-- A function on colors or normals has a statement. -/
lemma yields_functionOf (debug : Bool) (f : ColorFunction)
    (hinputs : ∀ pin ∈ f.inputPins, (n.input? pin).isSome)
    (houtputs : (n.outputs.get? f.outputPin).isSome) :
    Yields (g.functionOf n debug f) (Statement.Of g n) := by
  cases f with
  | normalize =>
    refine .bind (yields_output hplain h houtputs) fun target htarget => ?_
    refine .bind (yields_input hplain h (hinputs _ (by simp [ColorFunction.inputPins]))) fun vec hvec => ?_
    refine .pure (of_callOf hplain h debug (by decide) (Argument.of_whole htarget) ?_)
    exact List.forall_mem_singleton.2 (Argument.of_whole hvec)
  | srgbToLinear =>
    exact yields_conversionOf hplain h debug (by decide) (hinputs _ (by simp [ColorFunction.inputPins])) houtputs
  | linearToSrgb =>
    exact yields_conversionOf hplain h debug (by decide) (hinputs _ (by simp [ColorFunction.inputPins])) houtputs
  | frontNormal =>
    refine .bind (yields_output hplain h houtputs) fun target htarget => ?_
    refine .bind (yields_input hplain h (hinputs _ (by simp [ColorFunction.inputPins]))) fun normal hnormal => ?_
    exact .pure (Statement.of_frontNormal htarget hnormal)
  | encodeRgbm =>
    exact yields_rangedOf hplain h debug (by decide) (fun _ => Argument.of_rgb) hinputs houtputs
  | decodeRgbm =>
    exact yields_rangedOf hplain h debug (by decide) (fun _ => Argument.of_whole) hinputs houtputs

/-- A texture read has a statement. -/
lemma yields_textureOf (debug : Bool) (fetch : TextureFetch)
    (hinputs : ∀ pin ∈ texturePins, (n.input? pin).isSome)
    (houtputs : (n.outputs.get? "color").isSome) :
    Yields (g.textureOf n debug fetch) (Statement.Of g n) := by
  have hfunction : IsPlain fetch.function := by
    cases fetch <;> decide
  rw [textureOf]
  refine .bind (yields_output hplain h houtputs) fun target htarget => ?_
  refine .bind (yields_input hplain h (hinputs _ (by simp [texturePins]))) fun sampler hsampler => ?_
  refine .bind (yields_input hplain h (hinputs _ (by simp [texturePins]))) fun uv huv => ?_
  refine .pure (of_callOf hplain h debug hfunction (Argument.of_whole htarget) ?_)
  refine List.forall_mem_cons.2 ⟨Argument.of_whole hsampler, List.forall_mem_singleton.2 ⟨huv, ?_⟩⟩
  exact show IsPlain ".xy" by decide

/-- Wired pins have whole arguments. -/
lemma yields_wholeInputs {pins : List String} (hinputs : ∀ pin ∈ pins, (n.input? pin).isSome) :
    Yields (g.wholeInputs n pins) fun args =>
      (∀ a ∈ args, a.Of g n) ∧ args.length = pins.length := by
  rw [wholeInputs]
  exact .mapM fun pin hpin =>
    (yields_input hplain h (hinputs pin hpin)).map fun _ => Argument.of_whole

/-- The shading by a light has a statement. -/
lemma yields_lightOf (debug : Bool) (model : LightModel)
    (hinputs : ∀ pin ∈ model.pins.map (·.name), (n.input? pin).isSome)
    (houtputs : (n.outputs.get? "color").isSome) :
    Yields (g.lightOf n debug model) (Statement.Of g n) := by
  have hfunction : IsPlain model.function := by
    cases model <;> decide
  rw [lightOf]
  refine .bind (yields_output hplain h houtputs) fun target htarget => ?_
  refine .bind (.mapM fun pin hpin => ?_) fun args hargs =>
    .pure (of_callOf hplain h debug hfunction (Argument.of_whole htarget) hargs.1)
  refine (yields_input hplain h (hinputs pin.name (List.mem_map_of_mem hpin))).map fun o ho => ?_
  split
  · exact Argument.of_rgb ho
  · exact Argument.of_whole ho

omit hplain h in
/-- The targets that a morph counts are wired. -/
lemma isSome_of_lt_targetCount {i : Nat} (hi : i < n.targetCount) :
    (n.input? (targetPin i)).isSome := by
  let wired (i : Nat) := (n.input? (targetPin i)).isSome
  have hstart := List.takeWhile_prefix wired (l := List.range maxMorphTargets)
  have hmem : ((List.range maxMorphTargets).takeWhile wired)[i] ∈
      (List.range maxMorphTargets).takeWhile wired := List.getElem_mem hi
  rw [List.IsPrefix.getElem hstart hi, List.getElem_range] at hmem
  exact (List.all_eq_true (p := wired)).1 List.all_takeWhile i hmem

/-- The blending of targets has a statement. -/
lemma yields_morphOf (debug : Bool) (hinputs : ∀ pin ∈ morphPins, (n.input? pin).isSome)
    (houtputs : (n.outputs.get? "out").isSome) :
    Yields (g.morphOf n debug) (Statement.Of g n) := by
  rw [morphOf]
  refine .bind (yields_output hplain h houtputs) fun target htarget => ?_
  refine .bind (yields_input hplain h (hinputs _ (by simp [morphPins]))) fun weights hweights => ?_
  refine .bind (yields_input hplain h (hinputs _ (by simp [morphPins]))) fun vertex hvertex => ?_
  refine .bind (.mapM fun i hi =>
    (yields_input hplain h (isSome_of_lt_targetCount (List.mem_range.1 hi))).map fun _ => Argument.of_rgb) fun args hargs => ?_
  refine .pure (of_callOf hplain h debug (by decide) (Argument.of_whole htarget) ?_)
  exact List.forall_mem_cons.2 ⟨Argument.of_whole hweights,
    List.forall_mem_cons.2 ⟨Argument.of_rgb hvertex, hargs.1⟩⟩

/-- The bone matrix has a statement. -/
lemma yields_skinningOf (debug : Bool) (hinputs : ∀ pin ∈ skinningPins, (n.input? pin).isSome)
    (houtputs : (n.outputs.get? "mat4").isSome) :
    Yields (g.skinningOf n debug) (Statement.Of g n) := by
  rw [skinningOf]
  refine .bind (yields_output hplain h houtputs) fun target htarget => ?_
  refine .bind (yields_input hplain h (hinputs _ (by simp [skinningPins]))) fun weights hweights => ?_
  refine .bind (yields_input hplain h (hinputs _ (by simp [skinningPins]))) fun bones hbones => ?_
  refine .bind (yields_input hplain h (hinputs _ (by simp [skinningPins]))) fun palette _ => ?_
  refine .pure (of_callOf hplain h debug (by decide) (Argument.of_whole htarget) ?_)
  exact List.forall_mem_cons.2 ⟨Argument.of_whole hweights,
    List.forall_mem_singleton.2 (Argument.of_whole hbones)⟩

/-- A function of whole arguments has a statement: billboards, shadows and their depths. -/
lemma yields_wholeCall (debug : Bool) {function pin : String} (hfunction : IsPlain function)
    {pins : List String} (hinputs : ∀ pin ∈ pins, (n.input? pin).isSome)
    (houtputs : (n.outputs.get? pin).isSome) :
    Yields (do
      let target ← g.output n pin
      let args ← g.wholeInputs n pins
      return g.callOf n debug function (.whole target) args) (Statement.Of g n) := by
  refine .bind (yields_output hplain h houtputs) fun target htarget => ?_
  refine .bind (yields_wholeInputs hplain h hinputs) fun args hargs => ?_
  exact .pure (of_callOf hplain h debug hfunction (Argument.of_whole htarget) hargs.1)

/-- The depth that a surface leaves in a shadow map has a statement. -/
lemma yields_castOf (debug : Bool) (config : ShadowConfig)
    (hinputs : ∀ pin ∈ castPins, (n.input? pin).isSome)
    (houtputs : (n.outputs.get? "color").isSome) :
    Yields (g.castOf n debug config) (Statement.Of g n) := by
  refine yields_wholeCall hplain h debug (by decide) (fun pin hpin => hinputs pin ?_) houtputs
  -- without exponents, the last two pins are wired for nothing
  have hrequired : ["fragEye", "shadowDepthRange"] ++ ["exponent0", "exponent1"] ⊆ castPins := by
    simp [castPins]
  refine hrequired ?_
  split at hpin
  · exact hpin
  · exact List.mem_append_left _ (by simpa using hpin)

end Graph

/-- Every operation has a statement. It names operands of the node only, and it is plain. -/
theorem Node.WellWired.yields_statement {g : Graph} {n : Node} {roots : List NodeId}
    (h : n.WellWired roots g) (hplain : g.PlainOperands) (debug : Bool)
    (hoperation : n.kind.isOperation = true) :
    Yields (g.checkedStatement debug n) fun s => ∃ statement, s = some statement ∧
      statement.Of g n := by
  obtain ⟨hvalid, hkind⟩ := h.complete
  obtain ⟨hinputs, houtputs⟩ := n.validate_eq_ok_iff.1 hvalid
  have hsome : ∀ {x : Except Diagnostic Statement}, Yields x (Statement.Of g n) →
      Yields (some <$> x) fun s => ∃ statement, s = some statement ∧ statement.Of g n :=
    fun hx => hx.map fun statement hs => ⟨statement, rfl, hs⟩
  rw [Graph.checkedStatement, hvalid]
  simp only [Graph.statement]
  generalize n.kind = kind at *
  cases kind with
  | var v => cases hoperation
  | output f => cases hoperation
  | define name value => cases hoperation
  | add => exact hsome (Graph.yields_combination hplain h (by decide) hkind.1 hkind.2)
  | setFromNode => exact hsome (Graph.yields_combination hplain h (by decide) hkind.1 hkind.2)
  | mult => exact hsome (Graph.yields_combination hplain h (by decide) hkind.1 hkind.2)
  | matrixMult m =>
    exact hsome (Graph.yields_productOf hplain h m hinputs (houtputs _ List.mem_cons_self))
  | inlineCode code => exact hsome (Graph.yields_snippetOf hplain h hkind.1 hkind.2)
  | setAlpha => exact hsome (Graph.yields_alphaOf hplain h hinputs (houtputs _ List.mem_cons_self))
  | preMultAlpha =>
    exact hsome (Graph.yields_premultiplyOf hplain h (hinputs _ List.mem_cons_self)
      (houtputs _ List.mem_cons_self))
  | function f =>
    exact hsome (Graph.yields_functionOf hplain h debug f hinputs (houtputs _ List.mem_cons_self))
  | texture fetch =>
    exact hsome (Graph.yields_textureOf hplain h debug fetch hinputs
      (houtputs _ List.mem_cons_self))
  | light model =>
    exact hsome (Graph.yields_lightOf hplain h debug model hinputs (houtputs _ List.mem_cons_self))
  | morph => exact hsome (Graph.yields_morphOf hplain h debug hinputs (houtputs _ List.mem_cons_self))
  | skinning =>
    exact hsome (Graph.yields_skinningOf hplain h debug hinputs (houtputs _ List.mem_cons_self))
  | billboard =>
    exact hsome (Graph.yields_wholeCall hplain h debug (by decide) hinputs
      (houtputs _ List.mem_cons_self))
  | shadowReceive config =>
    exact hsome (Graph.yields_wholeCall hplain h debug (by decide) hinputs
      (houtputs _ List.mem_cons_self))
  | shadowCast config =>
    exact hsome (Graph.yields_castOf hplain h debug config hinputs (houtputs _ List.mem_cons_self))

end SceneShading
