import Mathlib.Tactic
import SceneShading.Proofs.Codegen.Assignment
import SceneShading.Proofs.Graph.Typing

/-!
# Arguments of well-typed nodes

What the generator writes about the components of an operand it decides by the type of the target
alone, and a call it writes with whatever its pins are wired to. In a well-typed graph both come out
right: a combination takes no more components of an operand than it has (`Graph.Typed.isSwizzled`). A
texture read passes the sampler of a texture unit with the type of the unit
(`Graph.Typed.arguments_textureRGBA`), and a receiver of shadows passes data and flat samplers
(`Graph.Typed.arguments_computeShadow`). If the graph is sound as well, then these samplers are declared
with their types (`Graph.Typed.exists_sampler`).
-/

namespace SceneShading

variable {samplerType : Nat → String} {g : Graph} {n : Node} {id : NodeId} {debug : Bool}

/-! ## Components of operands -/

/-- The number of components of a type. Truth values, matrices and samplers have none. -/
def componentCount? : String → Option Nat
  | "float" => some 1
  | "vec2" => some 2
  | "vec3" => some 3
  | "vec4" => some 4
  | _ => none

/-- The number of components that an argument takes of its operand: one for each letter behind the
point. -/
def Argument.width (a : Argument) : Nat := a.swizzle.length - 1

/-- The operand has components, and all that are taken of it for the target. Only floats are taken for a
float. -/
structure Operand.FitsInto (o target : Operand) : Prop where
  components : ∃ type count, o.type = some type ∧ componentCount? type = some count ∧
    (Statement.combined target o).width ≤ count
  scalar : target.type = some "float" → o.type = some "float"

/-- The statement is a combination of operands that fit into its target. -/
def Statement.IsSwizzled (s : Statement) : Prop :=
  ∃ operator target first rest, s = .combine operator target first rest ∧
    ∀ o ∈ first :: rest, o.FitsInto target

/-- What is combinable fits. -/
lemma Operand.fitsInto_of_combinable {o target : Operand} {type targetType : String}
    (htarget : target.type = some targetType) (htype : type ∈ combinable targetType)
    (ho : o.type = some type) : o.FitsInto target := by
  have hlengths : ".rg".length = 3 ∧ ".rgb".length = 4 ∧ ".rgba".length = 5 := by decide
  obtain ⟨name, _⟩ := o
  obtain ⟨targetName, _⟩ := target
  cases htarget
  cases ho
  unfold combinable at htype
  split at htype
  all_goals
    simp only [List.mem_cons, List.not_mem_nil, or_false] at htype
  all_goals
    rcases htype with rfl | rfl | rfl | rfl
  all_goals
    refine ⟨⟨_, _, rfl, rfl, ?_⟩, by simp⟩
    simp [Argument.width, Statement.combined, Operand.isScalar, Operand.is, Argument.whole,
      Statement.targetSwizzle, hlengths]

namespace Graph

/-! ## Statements of well-typed nodes -/

/-- A source that is a node of one of the types has an operand of such a type. -/
lemma leaves_resolve_of_fits {source : Source} {allowed : List String} (h : source.Fits g allowed)
    (nodeType pin : String) :
    Leaves (g.resolve nodeType source pin) fun o => ∃ type ∈ allowed, o.type = some type := by
  obtain ⟨id, rfl, type, hmem, htype⟩ := h
  obtain ⟨o, ho, htyped⟩ := Option.bind_eq_some_iff.1 htype
  rw [resolve, ho]
  exact .pure ⟨type, hmem, htyped⟩

/-- A combination of a node with fitting inputs fits. -/
lemma leaves_combination_of_combines (h : n.Combines g) (operator : String) :
    Leaves (g.combination n operator) Statement.IsSwizzled := by
  obtain ⟨target, targetType, houtputs, htarget, hinputs⟩ := h
  obtain ⟨o, ho, htargetType⟩ := Option.bind_eq_some_iff.1 htarget
  have hfirst : n.outputs.first? = some target := by rw [houtputs]; rfl
  have hresolved : Leaves (g.inputs n) fun os =>
      ∀ o ∈ os, ∃ type ∈ combinable targetType, o.type = some type := by
    refine Leaves.forall_mapM fun e he => ?_
    obtain ⟨i, hi, rfl⟩ := List.mem_mapIdx.1 he
    exact leaves_resolve_of_fits (hinputs _ (List.getElem_mem hi)) _ _
  rw [combination]
  refine .bind (leaves_firstOutput hfirst ho) fun target' htarget' => .bind hresolved fun os hos => ?_
  subst htarget'
  cases os with
  | nil => exact .error _
  | cons first rest =>
    refine .pure ⟨operator, target', first, rest, rfl, fun o ho => ?_⟩
    obtain ⟨type, htype, htyped⟩ := hos o ho
    exact Operand.fitsInto_of_combinable htargetType htype htyped

/-- A pin that is wired to an operand of a type has an operand of the type. -/
lemma leaves_input_of_type? {pin type : String} (hpin : n.input? pin = some (.node id))
    (htype : g.type? id = some type) : Leaves (g.input n pin) fun o => o.type = some type := by
  obtain ⟨o, ho, htyped⟩ := Option.bind_eq_some_iff.1 htype
  intro o' ho'
  rw [leaves_input hpin ho o' ho']
  exact htyped

/-- A texture read passes the sampler of a texture unit, and two components of texture coordinates. -/
lemma leaves_textureOf_of_samples (h : n.Samples samplerType g) (fetch : TextureFetch) :
    Leaves (g.textureOf n debug fetch) fun s => ∃ target unit uv note,
      s = .call fetch.function target
        [.whole ⟨samplerName unit, some (samplerType unit)⟩, ⟨uv, ".xy"⟩] note ∧
          uv.type = some "vec2" := by
  obtain ⟨unit, sampler, uv, hsampler, huv, hoperand, htype⟩ := h
  rw [textureOf]
  refine .bind (.any _) fun target _ => ?_
  refine .bind (leaves_input hsampler hoperand) fun o ho => ?_
  refine .bind (leaves_input_of_type? huv htype) fun o' ho' => .pure ?_
  exact ⟨_, unit, o', _, by rw [ho]; rfl, ho'⟩

/-- What receives shadows passes data, and flat samplers of texture units. -/
lemma leaves_receiveOf_of_passes (h : ∀ e ∈ n.inputs, e.2.Passes samplerType g)
    (config : ShadowConfig) :
    Leaves (g.receiveOf n debug config) fun s => ∃ target args note,
      s = .call "computeShadow" target args note ∧ ∀ a ∈ args, a.operand.Passes samplerType := by
  have hinput : ∀ pin, Leaves (g.input n pin) (Operand.Passes samplerType) := by
    intro pin
    rw [input]
    cases hpin : n.input? pin with
    | none => exact .error _
    | some source =>
      obtain ⟨e, he, rfl⟩ := Option.map_eq_some_iff.1 hpin
      obtain ⟨id, hid, o, ho, hpasses⟩ := h e (List.mem_of_find?_eq_some he)
      simp only [hid, resolve, ho]
      exact .pure hpasses
  have harguments : Leaves (g.wholeInputs n config.receivePins) fun args =>
      ∀ a ∈ args, a.operand.Passes samplerType :=
    .forall_mapM fun pin _ => (hinput pin).map fun _ ho => ho
  rw [receiveOf]
  refine .bind (.any _) fun target _ => .bind harguments fun args hargs => .pure ?_
  exact ⟨_, args, _, rfl, hargs⟩

end Graph

/-! ## Calls -/

/-- The function that a statement calls. -/
def Statement.function? : Statement → Option String
  | call function _ _ _ => some function
  | _ => none

/-- The function that nodes of a kind call. -/
def NodeKind.function? : NodeKind → Option String
  | function .normalize => some "normalize"
  | function .srgbToLinear => some "sRGBToLinear"
  | function .linearToSrgb => some "linearTosRGB"
  | function .encodeRgbm => some "encodeRGBM"
  | function .decodeRgbm => some "decodeRGBM"
  | texture fetch => some fetch.function
  | light model => some model.function
  | morph => some "morphTransform"
  | skinning => some "skeletalTransform"
  | billboard => some "billboard"
  | shadowReceive _ => some "computeShadow"
  | shadowCast _ => some "computeShadowDepth"
  | _ => none

namespace NodeKind

variable {kind : NodeKind}

/-- Only texture reads call the function that reads colors. -/
lemma eq_texture_of_function? (h : kind.function? = some "textureRGBA") :
    kind = .texture .rgba := by
  cases kind with
  | texture fetch => cases fetch <;> first | rfl | simp [function?, TextureFetch.function] at h
  | function f => cases f <;> simp [function?] at h
  | light model => cases model <;> simp [function?, LightModel.function] at h
  | _ => simp [function?] at h

/-- Only what receives shadows calls the function that receives them. -/
lemma eq_shadowReceive_of_function? (h : kind.function? = some "computeShadow") :
    ∃ config, kind = .shadowReceive config := by
  cases kind with
  | shadowReceive config => exact ⟨config, rfl⟩
  | function f => cases f <;> simp [function?] at h
  | light model => cases model <;> simp [function?, LightModel.function] at h
  | texture fetch => cases fetch <;> simp [function?, TextureFetch.function] at h
  | _ => simp [function?] at h

end NodeKind

namespace Graph

/-- A combination calls no function. -/
lemma leaves_combination_function? (operator : String) :
    Leaves (g.combination n operator) fun t => t.function? = none := by
  rw [combination]
  refine .bind (.any _) fun target _ => .bind (.any _) fun operands _ => ?_
  cases operands with
  | nil => exact .error _
  | cons first rest => exact .pure rfl

/-- A conversion of a color calls the function that it is given. -/
lemma leaves_conversionOf_function? (function : String) :
    Leaves (g.conversionOf n debug function) fun t => t.function? = some function := by
  rw [conversionOf]
  exact .bind (.any _) fun target _ => .bind (.any _) fun color _ => .pure rfl

/-- A conversion with a range calls the function that it is given. -/
lemma leaves_rangedOf_function? (function : String) (argument : Operand → Argument) :
    Leaves (g.rangedOf n debug function argument) fun t => t.function? = some function := by
  rw [rangedOf]
  refine .bind (.any _) fun target _ => .bind (.any _) fun color _ => ?_
  exact .bind (.any _) fun range _ => .pure rfl

/-- A node calls the function of its kind, or none. -/
lemma leaves_statement_function? :
    Leaves (g.statement debug n) fun s => ∀ t ∈ s, t.function? = n.kind.function? := by
  rw [statement]
  generalize n.kind = kind
  cases kind with
  | var v => exact .pure (by simp)
  | output b => exact .pure (by simp)
  | define name value => exact .pure (by simp)
  | add | mult | setFromNode => exact .some (leaves_combination_function? _)
  | matrixMult m =>
    refine .some (.bind (.any _) fun vec _ => .bind (.any _) fun matrix _ => ?_)
    exact .bind (.any _) fun target _ => .pure rfl
  | inlineCode code => exact .some (.bind (.any _) fun pieces _ => .pure rfl)
  | setAlpha | preMultAlpha =>
    refine .some (.bind (.any _) fun target _ => .bind (.any _) fun color _ => ?_)
    exact .bind (.any _) fun alpha _ => .pure rfl
  | function f =>
    cases f with
    | srgbToLinear => exact .some (leaves_conversionOf_function? _)
    | linearToSrgb => exact .some (leaves_conversionOf_function? _)
    | encodeRgbm => exact .some (leaves_rangedOf_function? _ _)
    | decodeRgbm => exact .some (leaves_rangedOf_function? _ _)
    | _ => exact .some (.bind (.any _) fun target _ => .bind (.any _) fun vec _ => .pure rfl)
  | texture fetch =>
    refine .some (.bind (.any _) fun target _ => .bind (.any _) fun sampler _ => ?_)
    exact .bind (.any _) fun uv _ => .pure rfl
  | light model => exact .some (.bind (.any _) fun target _ => .bind (.any _) fun args _ => .pure rfl)
  | morph =>
    refine .some (.bind (.any _) fun target _ => .bind (.any _) fun weights _ => ?_)
    exact .bind (.any _) fun vertex _ => .bind (.any _) fun targets _ => .pure rfl
  | skinning =>
    refine .some (.bind (.any _) fun target _ => .bind (.any _) fun weights _ => ?_)
    exact .bind (.any _) fun bones _ => .bind (.any _) fun palette _ => .pure rfl
  | billboard | shadowReceive config | shadowCast config =>
    exact .some (.bind (.any _) fun target _ => .bind (.any _) fun args _ => .pure rfl)

/-- What the statement of a node is, that of `main` is as well. -/
lemma of_mem_statements {p : Statement → Prop} {roots : List NodeId} {s : Statement}
    (hs : (n, s) ∈ g.statements debug roots)
    (h : Leaves (g.statement debug n) fun s => ∀ t ∈ s, p t) : p s := by
  obtain ⟨id, -, -, hchecked, -⟩ := mem_statements.1 hs
  rw [checkedStatement] at hchecked
  split at hchecked
  · exact h _ hchecked s rfl
  · cases hchecked

/-- A call in `main` is that of the function of its node. -/
lemma function?_of_mem_statements {roots : List NodeId} {s : Statement}
    (hs : (n, s) ∈ g.statements debug roots) : s.function? = n.kind.function? :=
  of_mem_statements hs leaves_statement_function?

/-! ## Statements of well-typed graphs -/

namespace Typed

variable {roots : List NodeId} (h : g.Typed samplerType)

include h

/-- **Combinations take components that are there.** Every statement that a well-typed graph has for a
combination combines operands that fit into its target. -/
lemma isSwizzled {e : Node × Statement} (he : e ∈ g.statements debug roots)
    (hkind : e.1.kind.isCombination = true) : e.2.IsSwizzled := by
  obtain ⟨n, s⟩ := e
  obtain ⟨id, -, hn, -⟩ := mem_statements.1 he
  have hcombined : ∀ operator, Leaves (some <$> g.combination n operator) fun s =>
      ∀ t ∈ s, t.IsSwizzled := fun operator =>
    .some (leaves_combination_of_combines ((h.nodes id n hn).combines hkind) operator)
  refine of_mem_statements he ?_
  rw [statement]
  cases hcase : n.kind
  all_goals rw [hcase] at hkind
  all_goals first | exact hcombined _ | cases hkind

/-- A texture read passes the sampler of a texture unit, and two components of texture coordinates. -/
lemma arguments_textureRGBA {target : Argument} {args : List Argument} {note : Option CallNote}
    (hs : (n, .call "textureRGBA" target args note) ∈ g.statements debug roots) :
    ∃ unit uv, args = [.whole ⟨samplerName unit, some (samplerType unit)⟩, ⟨uv, ".xy"⟩] ∧
      uv.type = some "vec2" := by
  have hkind : n.kind = .texture .rgba :=
    NodeKind.eq_texture_of_function? (function?_of_mem_statements hs).symm
  obtain ⟨id, -, hn, -⟩ := mem_statements.1 hs
  have hnode := h.nodes id n hn
  unfold Node.WellTyped at hnode
  rw [hkind] at hnode
  have hread : Leaves (g.statement debug n) fun s => ∀ t ∈ s, ∃ target unit uv note,
      t = .call "textureRGBA" target
        [.whole ⟨samplerName unit, some (samplerType unit)⟩, ⟨uv, ".xy"⟩] note ∧
          uv.type = some "vec2" := by
    rw [statement, hkind]
    exact .some (leaves_textureOf_of_samples hnode .rgba)
  obtain ⟨_, unit, uv, _, heq, huv⟩ := of_mem_statements hs hread
  cases heq
  exact ⟨unit, uv, rfl, huv⟩

/-- What receives shadows passes data, and flat samplers of texture units. -/
lemma arguments_computeShadow {target : Argument} {args : List Argument} {note : Option CallNote}
    (hs : (n, .call "computeShadow" target args note) ∈ g.statements debug roots) :
    ∀ a ∈ args, a.operand.Passes samplerType := by
  obtain ⟨config, hkind⟩ :=
    NodeKind.eq_shadowReceive_of_function? (function?_of_mem_statements hs).symm
  obtain ⟨id, -, hn, -⟩ := mem_statements.1 hs
  have hnode := h.nodes id n hn
  unfold Node.WellTyped at hnode
  rw [hkind] at hnode
  have hreceived : Leaves (g.statement debug n) fun s => ∀ t ∈ s, ∃ target args note,
      t = .call "computeShadow" target args note ∧ ∀ a ∈ args, a.operand.Passes samplerType := by
    rw [statement, hkind]
    exact .some (leaves_receiveOf_of_passes hnode config)
  obtain ⟨_, _, _, heq, hargs⟩ := of_mem_statements hs hreceived
  cases heq
  exact hargs

/-- The sampler of a texture unit is declared with the type of the unit, where a statement of a sound
graph names it. -/
lemma exists_sampler (hsound : g.Sound roots) {e : Node × Statement}
    (he : e ∈ g.statements debug roots) {unit : Nat} {type : Option String}
    (hnamed : ⟨samplerName unit, type⟩ ∈ e.2.operands) :
    ∃ v ∈ g.fileVariables roots,
      v.cls = .sampler ∧ v.name = samplerName unit ∧ v.type = samplerType unit := by
  obtain ⟨id, hid, hn, hs, -⟩ := mem_statements.1 he
  rcases hsound.count_declaredNames hid hn hs hnamed with ⟨output, houtput⟩ | hcount
  · have hletters : ∀ output : BuiltinOutput, letters output.variableName ≠ "Texture".toList := by
      rintro (_ | _ | _) <;> decide
    have hname : output.variableName = samplerName unit :=
      congrArg Operand.name (Option.some.inj houtput)
    exact absurd (hname ▸ letters_samplerName unit) (hletters output)
  · have hmem : samplerName unit ∈ g.declaredNames roots :=
      List.count_pos_iff.1 (hcount ▸ Nat.one_pos)
    rw [declaredNames, List.map_append, List.mem_append] at hmem
    rcases hmem with hfile | hlocal
    · obtain ⟨v, hv, hname⟩ := List.mem_map.1 hfile
      obtain ⟨other, -, hdeclared, -⟩ := mem_fileVariables.1 hv
      obtain ⟨hcls, htype⟩ := (h.named_of_declared? hdeclared).eq_samplerType hname
      exact ⟨v, hv, hcls, hname, htype⟩
    · obtain ⟨v, hv, hname⟩ := List.mem_map.1 hlocal
      obtain ⟨other, hdeclared, hisLocal⟩ := hsound.mem_localVariables.1 hv
      obtain ⟨hcls, -⟩ := (h.named_of_declared? hdeclared).eq_samplerType hname
      rw [Variable.localDeclaration, hcls] at hisLocal
      cases hisLocal

end Typed

end Graph

end SceneShading
