import Mathlib.Tactic
import SceneShading.Proofs.Graph.Judgement

/-!
# What requests make

There is a rule for each request of a builder. Variables of file scope and constants can be read as
soon as they were asked for. A local is open when it is declared; an operation writes open variables
or built-in outputs, and closes the former. What an operation needs to become a statement depends on
its kind and its wiring alone (`Serves.Wiring`).
-/

namespace SceneShading

variable {g g' : Graph} {roots own own' opened opened' : List NodeId} {id : NodeId}
  {kind : NodeKind} {α : Type} {asks : Bool}

attribute [simp] NodeKind.requiredInputs NodeKind.requiredOutputs ColorFunction.inputPins
  ColorFunction.outputPin texturePins morphPins skinningPins billboardPins castPins

/-- The operation has named pins, and its code is that of its kind. -/
def NodeKind.hasNamedPins : NodeKind → Bool
  | .add | .mult | .setFromNode | .inlineCode _ => false
  | kind => kind.isOperation

/-! ## Pins -/

namespace Pins

/-- The names after a pin is set. -/
lemma mem_names_set {pins : Pins} {pin name : String} :
    name ∈ (pins.set pin id).map (·.1) ↔ name ∈ pins.map (·.1) ∨ name = pin := by
  rw [set]
  split
  next h =>
    have hnames : (pins.map fun p => if p.1 = pin then (pin, id) else p).map (·.1) =
        pins.map (·.1) := by
      rw [List.map_map]
      refine List.map_congr_left fun p _ => ?_
      by_cases hp : p.1 = pin <;> simp [hp]
    have hpin : pin ∈ pins.map (·.1) := by
      obtain ⟨p, hp, heq⟩ := List.any_eq_true.1 h
      exact List.mem_map.2 ⟨p, hp, beq_iff_eq.1 heq⟩
    rw [hnames]
    constructor
    · exact .inl
    · rintro (h | rfl)
      · exact h
      · exact hpin
  next => rw [List.map_append, List.mem_append, List.map_singleton, List.mem_singleton]

/-- A pin after one is set: the new one, or an old one. -/
lemma mem_set {pins : Pins} {pin : String} {p : String × NodeId} (hp : p ∈ pins.set pin id) :
    p = (pin, id) ∨ p ∈ pins := by
  rw [set] at hp
  split at hp
  · obtain ⟨q, hq, rfl⟩ := List.mem_map.1 hp
    split
    · exact .inl rfl
    · exact .inr hq
  · exact (List.mem_append.1 hp).symm.imp_left List.mem_singleton.1

/-- The nodes after a pin is set. -/
lemma nodes_set (pins : Pins) (pin : String) (id : NodeId) :
    (pins.set pin id).map (·.2) ⊆ id :: pins.map (·.2) := by
  intro node hnode
  obtain ⟨p, hp, rfl⟩ := List.mem_map.1 hnode
  rcases mem_set hp with rfl | hp
  · exact List.mem_cons_self
  · exact List.mem_cons_of_mem _ (List.mem_map_of_mem hp)

/-- The names after several pins are set. -/
lemma mem_names_setAll {pins others : Pins} {name : String} :
    name ∈ (pins.setAll others).map (·.1) ↔
      name ∈ pins.map (·.1) ∨ name ∈ others.map (·.1) := by
  rw [setAll]
  induction others generalizing pins with
  | nil => simp
  | cons p ps ih => rw [List.foldl_cons, ih, mem_names_set, List.map_cons, List.mem_cons, or_assoc]

/-- A pin after several are set: a new one, or an old one. -/
lemma mem_setAll {pins others : Pins} {p : String × NodeId} (hp : p ∈ pins.setAll others) :
    p ∈ others ∨ p ∈ pins := by
  rw [setAll] at hp
  induction others generalizing pins with
  | nil => exact .inr hp
  | cons q qs ih =>
    rcases ih hp with h | h
    · exact .inl (List.mem_cons_of_mem _ h)
    · rcases mem_set h with rfl | h
      · exact .inl List.mem_cons_self
      · exact .inr h

/-- The nodes after several pins are set. -/
lemma nodes_setAll (pins others : Pins) :
    (pins.setAll others).map (·.2) ⊆ others.map (·.2) ++ pins.map (·.2) := by
  intro node hnode
  obtain ⟨p, hp, rfl⟩ := List.mem_map.1 hnode
  exact List.mem_append.2 ((mem_setAll hp).imp List.mem_map_of_mem List.mem_map_of_mem)

/-- The node of a name after a pin is set. -/
lemma lookup_set (pins : Pins) (pin : String) (id : NodeId) (name : String) :
    (pins.set pin id).lookup name = if name = pin then some id else pins.lookup name := by
  -- all pins of the name are wired anew
  have hmap : (pins.map fun p => if p.1 = pin then (pin, id) else p).lookup name =
      if name = pin then (pins.lookup name).map fun _ => id else pins.lookup name := by
    induction pins with
    | nil => simp
    | cons p ps ih =>
      rw [List.map_cons, List.lookup_cons, List.lookup_cons, ih]
      by_cases hname : name = pin <;> by_cases hp : p.1 = pin <;> grind
  have hsome : pins.any (·.1 == pin) = (pins.lookup pin).isSome := by
    rw [Bool.eq_iff_iff, List.any_eq_true, Option.isSome_iff_ne_none, Ne, List.lookup_eq_none_iff,
      not_forall]
    refine exists_congr fun p => ?_
    rw [Classical.not_imp, Bool.not_eq_true, bne_eq_false_iff_eq, beq_iff_eq, eq_comm]
  rw [set]
  by_cases hname : name = pin
  · subst hname
    split
    next h =>
      rw [hsome] at h
      obtain ⟨other, hother⟩ := Option.isSome_iff_exists.1 h
      rw [hmap, if_pos rfl, if_pos rfl, hother, Option.map_some]
    next h =>
      rw [hsome, Option.not_isSome_iff_eq_none] at h
      rw [List.lookup_append, h, Option.none_or, if_pos rfl, List.lookup_cons_self]
  · rw [if_neg hname]
    split
    next => rw [hmap, if_neg hname]
    next =>
      have hnone : List.lookup name [(pin, id)] = none := by
        simp [hname]
      rw [List.lookup_append, hnone, Option.or_none]

/-- Pins that are set with different names keep their nodes. -/
lemma lookup_setAll {pins others : Pins} (hnodup : (others.map (·.1)).Nodup)
    {p : String × NodeId} (hp : p ∈ others) : (pins.setAll others).lookup p.1 = some p.2 := by
  have hstays : ∀ (others pins : Pins), p.1 ∉ others.map (·.1) →
      (pins.setAll others).lookup p.1 = pins.lookup p.1 := by
    intro others
    induction others with
    | nil => exact fun _ _ => rfl
    | cons q qs ih =>
      intro pins hnot
      rw [List.map_cons, List.mem_cons, not_or] at hnot
      exact (ih (pins.set q.1 q.2) hnot.2).trans ((lookup_set ..).trans (if_neg hnot.1))
  induction others generalizing pins with
  | nil => cases hp
  | cons q qs ih =>
    obtain ⟨hq, hqs⟩ := List.nodup_cons.1 hnodup
    rcases List.mem_cons.1 hp with rfl | hp
    · exact (hstays qs _ hq).trans ((lookup_set ..).trans (if_pos rfl))
    · exact ih hqs hp
end Pins


/-! ## Variables -/

/-- Variables of one name have one class. -/
lemma Variable.Fits.cls_eq {v w : Variable} {m n : Nat} (hv : v.Fits m) (hw : w.Fits n)
    (hname : v.name = w.name) : v.cls = w.cls := by
  have hletters : "tmp_".toList ≠ "Texture".toList := by decide
  rcases hv.named with hv | ⟨hcls, hv⟩ | ⟨hcls, k, -, hv⟩
  · rcases hw.named with hw | ⟨-, hw⟩ | ⟨-, k, -, hw⟩
    · rw [hname] at hv
      exact (hv.unique hw).1
    · exact absurd (hname ▸ hw) hv.letters_ne_sampler
    · refine absurd ?_ hv.letters_ne_temporary
      rw [hname, hw, letters_temporary]
  · rcases hw.named with hw | ⟨hcls', -⟩ | ⟨-, k, -, hw⟩
    · exact absurd (hname ▸ hv) hw.letters_ne_sampler
    · rw [hcls, hcls']
    · rw [hname, hw, letters_temporary] at hv
      exact absurd hv hletters
  · rcases hw.named with hw | ⟨-, hw⟩ | ⟨hcls', -⟩
    · refine absurd ?_ hw.letters_ne_temporary
      rw [← hname, hv, letters_temporary]
    · rw [← hname, hv, letters_temporary] at hw
      exact absurd hw hletters
    · rw [hcls, hcls']

namespace Graph

/-- The variable of a name, or else the given one. -/
def request (g : Graph) (v : Variable) : NodeId × Graph :=
  match g.find? v.name with
  | some existing => (existing, g)
  | none => g.insertVariable v

/-- A variable that is given a value when it is new could have had it from the start. -/
lemma setValue_insertVariable (g : Graph) (v : Variable) (value : String) :
    (g.insertVariable v).2.setValue g.size value =
      (g.insertVariable { v with value := some value }).2 := by
  have hnode : (g.insertVariable v).2.node? g.size = some { id := g.size, kind := .var v } := by
    have hnew := node?_insert g (.var v) g.size
    rwa [if_pos rfl] at hnew
  have hsize : g.size < (g.insertVariable v).2.size := by
    simp only [size, insertVariable, insert, Array.size_push]
    exact Nat.lt_succ_self _
  have hpush : ∀ (nodes : Array Node) (a : Node) (f : Node → Node),
      (nodes.push a).modify nodes.size f = nodes.push (f a) := by
    intro nodes a f
    refine Array.ext_getElem? fun i => ?_
    rw [Array.getElem?_modify, Array.getElem?_push, Array.getElem?_push]
    by_cases h : i = nodes.size
    · rw [if_pos h.symm, if_pos h, if_pos h, Option.map_some]
    · rw [if_neg (Ne.symm h), if_neg h, if_neg h]
  rw [setValue, hnode]
  simp only [NodeKind.withValue?]
  rw [modify, if_pos hsize]
  simp only [insertVariable, insert, size, hpush]

/-- A note lets a graph grow. -/
lemma grows_noteIf (g : Graph) (condition : Bool) (n : Notice) : g.Grows (g.noteIf condition n) :=
  fun id kind hkind => by rwa [kind?, node?_noteIf]

/-- A note changes no variable. -/
lemma declared?_noteIf (g : Graph) (condition : Bool) (n : Notice) (id : NodeId) :
    (g.noteIf condition n).declared? id = g.declared? id := by
  rw [declared?, node?_noteIf, declared?]

namespace Sound

/-- A variable is found with the type that its name stands for. -/
lemma checkType_eq (h : Sound roots g) {cls : VariableClass} {name type : String}
    (hname : HasType cls name type) (hfind : g.find? name = some id) :
    g.checkType id name type = (true, g) := by
  obtain ⟨v, hv, rfl⟩ := (h.registered name id).1 hfind
  have htype : v.type = type := by
    rcases (h.fits id v hv).named with hv | ⟨-, hv⟩ | ⟨-, k, -, hv⟩
    · exact (hv.unique hname).2
    · exact absurd hv hname.letters_ne_sampler
    · refine absurd ?_ hname.letters_ne_temporary
      rw [hv, letters_temporary]
  rw [checkType, hv]
  exact if_pos htype

/-- Temporary names are free. -/
lemma find?_temporary (h : Sound roots g) :
    g.find? ("tmp_" ++ toString g.registry.size) = none := by
  cases hfind : g.find? ("tmp_" ++ toString g.registry.size) with
  | none => rfl
  | some id =>
    obtain ⟨v, hv, hname⟩ := (h.registered _ id).1 hfind
    exfalso
    rcases (h.fits id v hv).named with hfits | ⟨-, hfits⟩ | ⟨-, k, hk, hfits⟩
    · refine hfits.letters_ne_temporary ?_
      rw [hname, letters_temporary]
    · rw [hname, letters_temporary] at hfits
      exact absurd hfits (by decide)
    · -- the name has the number of an earlier time
      have heq := append_toString_injective "tmp_" (hfits.symm.trans hname)
      omega

end Sound

namespace Meets

variable {facts : List NodeFact} {v : Variable}

/-- What is found under a name can be read if it is not open. -/
lemma reads_of_find? (h : g.Meets asks roots opened facts) {name : String}
    (hfind : g.find? name = some id)
    (hclosed : ∀ w, g.declared? id = some w → w.name = name → ¬w.MayOpen roots id ∨
      (asks = true ∧ IsShared w.name)) : (NodeFact.reads id).Holds opened g := by
  obtain ⟨w, hw, hname⟩ := (h.sound.registered name id).1 hfind
  refine ⟨by rw [hw, Option.isSome_some], fun hmem => ?_⟩
  rcases hclosed w hw hname with hopen | ⟨hasks, hshared⟩
  · obtain ⟨w', hw', hmayOpen⟩ := h.flow.declared id hmem
    rw [hw] at hw'
    cases hw'
    exact hopen hmayOpen
  · exact h.unshared hasks id hmem w hw hshared

/-- A note is of no account. -/
lemma noteIf (h : g.Meets asks roots opened facts) (condition : Bool) (n : Notice) :
    (g.noteIf condition n).Meets asks roots opened facts := by
  have hlater : g.Later opened (g.noteIf condition n) opened :=
    ⟨grows_noteIf g condition n, fun _ hid => .inl hid⟩
  refine ⟨h.sound.noteIf _ _, h.flow.noteIf _ _, fun hasks id hid w hw => ?_,
    fun fact hfact => hlater.holds (h.holds fact hfact)⟩
  rw [declared?_noteIf] at hw
  exact h.unshared hasks id hid w hw

/-- A new variable is there and can be read, or else it is open. It has to be open if it needs a
value, and it must not be if it may be asked for by name. -/
lemma insertVariable (h : g.Meets asks roots opened facts) (hfree : g.find? v.name = none)
    (hfits : v.Fits (g.registry.size + 1))
    (hnew : opened' = opened ∨ (opened' = g.size :: opened ∧ v.MayOpen roots g.size ∧
      (asks = true → ¬IsShared v.name)))
    (hdue : v.IsDue roots g.size → g.size ∈ opened') (hvarying : v.cls ≠ .varying) :
    (g.insertVariable v).2.Meets asks roots opened' [] ∧
      g.Later opened (g.insertVariable v).2 opened' ∧
      (g.insertVariable v).2.declared? g.size = some v := by
  obtain ⟨hsound, hkind⟩ := h.sound.insertVariable hfree hfits
  have hflow : (g.insertVariable v).2.Flow roots opened' := by
    refine h.flow.insert h.sound (node?_insert g (.var v)) (List.Subset.refl _) rfl ?_ ?_ ?_
    · exact hnew.imp_right fun ⟨heq, hmayOpen, _⟩ => ⟨heq, v, rfl, hmayOpen⟩
    · rintro w ⟨⟩
      exact hdue
    · rintro w ⟨⟩ hcls
      exact absurd hcls hvarying
  have hdeclared : (g.insertVariable v).2.declared? g.size = some v := by
    rw [declared?_eq, hkind, if_pos rfl]
    rfl
  have hmem : ∀ id ∈ opened', id ∈ opened ∨ (id = g.size ∧ (asks = true → ¬IsShared v.name)) := by
    intro id hid
    rcases hnew with rfl | ⟨rfl, -, hunshared⟩
    · exact .inl hid
    · exact (List.mem_cons.1 hid).elim (fun heq => .inr ⟨heq, hunshared⟩) .inl
  have hlater : g.Later opened (g.insertVariable v).2 opened' :=
    ⟨.of_kind? hkind, fun id hid => (hmem id hid).imp_right fun heq => heq.1.ge⟩
  refine ⟨⟨hsound, hflow, fun hasks id hid w hw => ?_, by simp⟩, hlater, hdeclared⟩
  rcases hmem id hid with hid | ⟨rfl, hunshared⟩
  · exact h.unshared_of_grows hlater.grows hasks hid hw
  · rw [hdeclared] at hw
    cases hw
    exact hunshared hasks

/-- A request for a variable of file scope or a constant makes it. -/
lemma request (h : g.Meets asks roots opened facts) (hfits : ∀ n, v.Fits n)
    (hcls : v.cls ≠ .temporary ∧ v.cls ≠ .varying) :
    (g.request v).2.Meets asks roots opened [.reads (g.request v).1] ∧
      g.Later opened (g.request v).2 opened := by
  have hclosed : ∀ id, ¬v.MayOpen roots id := by
    rintro id (htemporary | ⟨hvarying, -⟩)
    · exact hcls.1 htemporary
    · exact hcls.2 hvarying
  rw [Graph.request]
  split
  next existing hfind =>
    refine ⟨⟨h.sound, h.flow, h.unshared, ?_⟩, .refl g opened⟩
    refine List.forall_mem_singleton.2 (h.reads_of_find? hfind fun w hw hname => .inl ?_)
    have hsame : w.cls = v.cls := (h.sound.fits existing w hw).cls_eq (hfits 0) hname
    rw [Variable.MayOpen, hsame]
    exact hclosed existing
  next hfree =>
    have hnotDue : ¬v.IsDue roots g.size := by
      rintro (⟨htemporary, -⟩ | hvarying)
      · exact hcls.1 htemporary
      · exact hcls.2 hvarying.1
    obtain ⟨hmeets, hlater, hdeclared⟩ := h.insertVariable hfree (hfits _) (.inl rfl)
      (fun hdue => absurd hdue hnotDue) hcls.2
    refine ⟨⟨hmeets.sound, hmeets.flow, hmeets.unshared, List.forall_mem_singleton.2 ?_⟩, hlater⟩
    exact ⟨by rw [show (g.insertVariable v).1 = g.size from rfl, hdeclared, Option.isSome_some],
      fun hmem => lt_irrefl _ (h.flow.lt_size hmem)⟩

/-- A new varying can be read in a stage that writes none. -/
lemma insertVarying (h : g.Meets asks [] opened facts) {name type : String}
    (hfree : g.find? name = none) (hname : Carried name type) :
    let g' := (g.insertVariable { cls := .varying, type, name }).2.addVarying name g.size
    g'.Meets asks [] opened [.reads g.size] ∧ g.Later opened g' opened := by
  intro g'
  obtain ⟨hsound, hkind⟩ : Sound [] g' ∧ ∀ j, g'.kind? j = _ := h.sound.insertVarying hfree hname
  have hlater : g.Later opened g' opened := ⟨.of_kind? hkind, fun _ hid => .inl hid⟩
  have hflow : g'.Flow [] opened := by
    refine h.flow.insert h.sound (node?_insert g _) (List.subset_append_left _ _) rfl (.inl rfl) ?_ ?_
    · rintro w ⟨⟩ (⟨htemporary, -⟩ | ⟨-, hroot⟩)
      · cases htemporary
      · cases hroot
    · rintro w ⟨⟩ -
      exact List.mem_append_right _ List.mem_cons_self
  refine ⟨⟨hsound, hflow, fun hasks id hid w hw => h.unshared_of_grows hlater.grows hasks hid hw,
    List.forall_mem_singleton.2 ⟨?_, fun hmem => lt_irrefl _ (h.flow.lt_size hmem)⟩⟩, hlater⟩
  rw [declared?_eq, hkind, if_pos rfl]
  rfl

end Meets

end Graph

namespace Serves

open Builder NodeFact

variable {needs : List NodeFact} {name type value : String}

/-! ### Variables of file scope and constants -/

/-- A builder that asks for a variable, perhaps after a note, makes it. -/
lemma of_request {b : Builder NodeId} {v : Variable} (hfits : ∀ n, v.Fits n)
    (hcls : v.cls ≠ .temporary ∧ v.cls ≠ .varying)
    (hb : ∀ g, g.Sound roots → ∃ condition note, b g = (g.noteIf condition note).request v) :
    Makes asks roots needs b fun id => [.reads id] := by
  intro g rest hmeets
  obtain ⟨condition, note, hrequest⟩ := hb g hmeets.sound
  obtain ⟨hmade, hlater⟩ := (hmeets.noteIf condition note).request hfits hcls
  rw [hrequest]
  exact ⟨hmade, .trans ⟨Graph.grows_noteIf g condition note, fun _ hid => .inl hid⟩ hlater⟩

/-- A variable of the vocabulary fits every graph. -/
lemma fits_of_hasType {v : Variable} (hname : HasType v.cls v.name v.type)
    (hvalue : ∀ text ∈ v.value, IsPlain text) (n : Nat) : v.Fits n :=
  ⟨.inl hname, hname.isPlain_name, hname.isPlain_type, hvalue⟩

/-- A uniform can be read. -/
lemma uniformOf (hname : HasType .uniform name type) (size : Option Nat) :
    Makes asks roots needs (fun g => g.uniform type name size) fun id => [.reads id] := by
  refine of_request (v := { cls := .uniform, type, name, size })
    (fits_of_hasType hname (by simp)) (by simp) fun g hg => ⟨name.isEmpty, .unnamedUniform, ?_⟩
  rw [Graph.uniform, Graph.request]
  cases hfind : (g.noteIf name.isEmpty .unnamedUniform).find? name with
  | none => rfl
  | some id => simp only [(hg.noteIf _ _).checkType_eq hname hfind, if_true]

/-- A uniform can be read. -/
lemma uniform (hname : HasType .uniform name type) :
    Makes asks roots needs (Builder.uniform type name) fun id => [.reads id] :=
  uniformOf hname none

/-- A uniform array can be read. -/
lemma uniformArray (hname : HasType .uniform name type) (size : Nat) :
    Makes asks roots needs (Builder.uniformArray type name size) fun id => [.reads id] :=
  uniformOf hname (some size)

/-- A sampler can be read. -/
lemma sampler (hname : letters name = "Texture".toList) (htype : IsPlain type) :
    Makes asks roots needs (Builder.sampler type name) fun id => [.reads id] := by
  have hplain : IsPlain name := by
    refine isPlain_of_letters ?_
    rw [hname]
    exact show IsPlain "Texture" by decide
  refine of_request (v := { cls := .sampler, type, name })
    (fun _ => ⟨.inr (.inl ⟨rfl, hname⟩), hplain, htype, by simp⟩) (by simp)
    fun g _ => ⟨name.isEmpty, .unnamedSampler type, ?_⟩
  unfold Builder.sampler Graph.sampler Graph.request
  rfl

/-- A vertex attribute can be read. -/
lemma vertexAttribute (hname : HasType .attribute name type) :
    Makes asks roots needs (Builder.vertexAttribute type name) fun id => [.reads id] := by
  refine of_request (v := { cls := .attribute, type, name })
    (fits_of_hasType hname (by simp)) (by simp)
    fun g hg => ⟨decide (g.stage = .fragment), .attributeInFragment name, ?_⟩
  rw [Builder.vertexAttribute, Graph.vertexAttribute, Graph.request]
  cases hfind : (g.noteIf (g.stage = .fragment) (.attributeInFragment name)).find? name with
  | none => rfl
  | some id => simp only [(hg.noteIf _ _).checkType_eq hname hfind]

/-- A constant can be read. -/
lemma constant (hname : HasType .constant name type) (hvalue : IsPlain value) :
    Makes asks roots needs (Builder.constant type name value) fun id => [.reads id] := by
  refine of_request (v := { cls := .constant, type, name, value := some value })
    (fits_of_hasType hname (by simpa using hvalue)) (by simp)
    fun g hg => ⟨false, .unnamedUniform, ?_⟩
  have hnote : g.noteIf false .unnamedUniform = g := rfl
  rw [Builder.constant, Graph.constant, Graph.request, hnote]
  cases hfind : g.find? name with
  | none =>
    exact congrArg (Prod.mk g.size) (g.setValue_insertVariable { cls := .constant, type, name } value)
  | some id => simp only [hg.checkType_eq hname hfind]

/-- A varying can be read in a stage that writes none. -/
lemma varying (hname : Carried name type) :
    Makes asks [] needs (Builder.varying type name) fun id => [.reads id] := by
  intro g rest hmeets
  rw [Builder.varying, Graph.varying]
  cases hfind : g.find? name with
  | some id =>
    have hnote := hmeets.noteIf (!g.varyings.any (·.1 == name)) (.notAVarying name)
    have hfind' : (g.noteIf (!g.varyings.any (·.1 == name)) (.notAVarying name)).find? name =
        some id := by
      rw [Graph.find?, (Graph.noteIf_framed _ _ _).registry]
      exact hfind
    have hread := hnote.reads_of_find? hfind' fun w hw heq => .inl ?_
    · simp only [hnote.sound.checkType_eq hname.hasType hfind']
      exact ⟨⟨hnote.sound, hnote.flow, hnote.unshared, List.forall_mem_singleton.2 hread⟩,
        Graph.grows_noteIf _ _ _, fun _ hid => .inl hid⟩
    · -- what is found is a varying, and the stage writes none
      have hcls : w.cls = .varying := (hnote.sound.fits id w hw).cls_eq
        (fits_of_hasType (v := { cls := .varying, type, name }) hname.hasType (by simp) 0) heq
      rintro (htemporary | ⟨-, hroot⟩)
      · rw [hcls] at htemporary
        cases htemporary
      · cases hroot
  | none =>
    have hnote := hmeets.noteIf (g.stage = .vertex && !g.customFragment)
      (.undeclaredVarying name type)
    have hfree : (g.noteIf (g.stage = .vertex && !g.customFragment)
        (.undeclaredVarying name type)).find? name = none := by
      rw [Graph.find?, (Graph.noteIf_framed _ _ _).registry]
      exact hfind
    obtain ⟨hmade, hlater⟩ := hnote.insertVarying hfree hname
    exact ⟨hmade, .trans ⟨Graph.grows_noteIf _ _ _, fun _ hid => .inl hid⟩ hlater⟩

/-! ### Locals -/

/-- A new local is open. -/
lemma of_insertLocal {b : Builder NodeId} {facts : NodeId → List NodeFact}
    (h : ∀ g, g.Sound roots → ∃ v : Variable, v.cls = .temporary ∧ g.find? v.name = none ∧
      v.Fits (g.registry.size + 1) ∧ (asks = true → ¬IsShared v.name) ∧
        (∀ fact ∈ facts g.size, fact = .valued g.size ∧ v.value.isSome) ∧
          b g = g.insertVariable v) :
    Serves asks roots needs [] b facts fun id => [id] := by
  intro g rest hmeets
  obtain ⟨v, hcls, hfree, hfits, hunshared, hfacts, heq⟩ := h g hmeets.sound
  have hnew : (g.insertVariable v).1 :: rest = g.size :: rest := rfl
  obtain ⟨hmade, hlater, hdeclared⟩ := hmeets.insertVariable hfree hfits
    (.inr ⟨hnew, .inl hcls, hunshared⟩) (fun _ => List.mem_cons_self) (by rw [hcls]; decide)
  rw [heq]
  refine ⟨⟨hmade.sound, hmade.flow, hmade.unshared, fun fact hfact => ?_⟩, hlater⟩
  obtain ⟨rfl, hvalue⟩ := hfacts fact hfact
  exact ⟨v, hdeclared, hcls, hvalue⟩

/-- A temporary variable with a value fits the graph that it is made for. -/
lemma fits_temporary (g : Graph) (htype : IsPlain type) {value : Option String}
    (hvalue : ∀ text ∈ value, IsPlain text) :
    Variable.Fits (g.registry.size + 1)
      { cls := .temporary, type, name := "tmp_" ++ toString g.registry.size, value } := by
  refine ⟨.inr (.inr ⟨rfl, g.registry.size, Nat.lt_succ_self _, rfl⟩), ?_, htype, hvalue⟩
  exact isPlain_append.2 ⟨by decide, isPlain_toString _⟩

/-- A local under a temporary name is open. -/
lemma temporary (htype : IsPlain type) :
    Serves asks roots needs [] (Builder.temporary type) (fun _ => []) fun id => [id] :=
  of_insertLocal fun g hg =>
    ⟨{ cls := .temporary, type, name := "tmp_" ++ toString g.registry.size }, rfl,
      hg.find?_temporary, fits_temporary g htype (by simp),
      fun _ => not_isShared_temporary g.registry.size, by simp, rfl⟩

/-- A local with a value is open. -/
lemma localValued (htype : IsPlain type) (hvalue : IsPlain value) :
    Serves asks roots needs [] (Builder.localValued type value) (fun id => [.valued id])
      fun id => [id] := by
  refine of_insertLocal fun g hg =>
    ⟨{ cls := .temporary, type, name := "tmp_" ++ toString g.registry.size, value := some value },
      rfl, hg.find?_temporary, fits_temporary g htype (by simpa using hvalue),
      fun _ => not_isShared_temporary g.registry.size, by simp, ?_⟩
  exact congrArg (Prod.mk g.size) (g.setValue_insertVariable _ value)

/-- A local under a wanted name is open. -/
lemma localNamed (hname : HasType .temporary name type) (hunshared : asks = true → ¬IsShared name) :
    Serves asks roots needs [] (Builder.localNamed type name) (fun _ => []) fun id => [id] := by
  refine of_insertLocal fun g hg =>
    ⟨{ cls := .temporary, type, name := g.registry.localName (some name) }, rfl, ?_, ?_, ?_, by simp,
      rfl⟩
  · have hfree := (g.registry.localName_some name).1
    rw [Registry.contains_eq_isSome, Option.isSome_eq_false_iff, Option.isNone_iff_eq_none] at hfree
    exact hfree
  · exact fits_of_hasType (hname.localName g.registry) (by simp) _
  · intro hasks
    rcases (g.registry.localName_some name).2 with heq | ⟨n, heq⟩
    · simpa only [heq] using hunshared hasks
    · simp only [heq, isShared_append_toString]
      exact hunshared hasks

/-- What is found under a shared name can be read; otherwise it is what is made. -/
lemma orElse {make : Builder NodeId} (hshared : IsShared name)
    (hmake : Makes true roots needs make fun id => [.reads id]) :
    Makes true roots needs (Builder.orElse name make) fun id => [.reads id] := by
  intro g rest hmeets
  rw [orElse_eq]
  cases hfind : g.find? name with
  | some id =>
    refine ⟨⟨hmeets.sound, hmeets.flow, hmeets.unshared, ?_⟩, .refl g _⟩
    refine List.forall_mem_singleton.2 (hmeets.reads_of_find? hfind fun w _ heq => .inr ⟨rfl, ?_⟩)
    rwa [heq]
  | none => exact hmake g rest hmeets

/-! ### Nodes -/

/-- A node that is neither variable nor operation is there. -/
lemma of_insert {b : Builder NodeId} (hoperation : kind.isOperation = false)
    (hvariable : kind.declared? = none) (hb : ∀ g, b g = g.insert kind)
    {facts : NodeId → List NodeFact}
    (hfacts : ∀ id, ∀ fact ∈ facts id, fact = .output id ∧ ∃ o, kind = .output o) :
    Makes asks roots needs b facts := by
  intro g rest hmeets
  have hkind : ∀ j, (g.insert kind).2.kind? j = _ := Graph.kind?_of_node? (Graph.node?_insert g kind)
  have hlater : g.Later rest (g.insert kind).2 rest := ⟨.of_kind? hkind, fun _ hid => .inl hid⟩
  have hnone : ∀ v, kind ≠ .var v := by
    rintro v rfl
    cases hvariable
  rw [hb]
  refine ⟨⟨hmeets.sound.insert hoperation hvariable, ?_,
    fun hasks id hid v hv => hmeets.unshared_of_grows hlater.grows hasks hid hv,
    fun fact hfact => ?_⟩, hlater⟩
  · exact hmeets.flow.insert hmeets.sound (Graph.node?_insert g kind) (List.Subset.refl _) hoperation
      (.inl rfl) (fun v hv => absurd hv (hnone v)) fun v hv => absurd hv (hnone v)
  · obtain ⟨rfl, o, rfl⟩ := hfacts _ fact hfact
    exact ⟨o, (hkind _).trans (if_pos rfl)⟩

/-- A built-in output can be written. -/
lemma output (o : BuiltinOutput) :
    Makes asks roots needs (node (.output o)) fun id => [.output id] :=
  of_insert rfl rfl (fun _ => rfl) (by simp)

/-- The name of a program is a definition. -/
lemma programName (name : String) :
    Makes asks roots needs (Builder.programName name) fun _ => [] :=
  have hinsert : ∀ g, Builder.programName name g = g.insert (.define "SHADER_NAME" name) := fun _ => rfl
  of_insert rfl rfl hinsert (by simp)

/-- A comment on a node that exists. -/
lemma comment {text : String} (htext : IsPlain text) (hid : .node id ∈ needs) :
    Makes asks roots needs (Builder.comment id text) fun _ => [] := by
  intro g rest hmeets
  have hsize : id < g.size := hmeets.holds _ hid
  obtain ⟨hsound, hkind⟩ := hmeets.sound.setComment hsize htext
  have hgrows : g.Grows (g.setComment id text) := fun j kind hj => (hkind j).trans hj
  exact ⟨⟨hsound, hmeets.flow.setComment hsize text,
    fun hasks j hj v hv => hmeets.unshared_of_grows hgrows hasks hj hv, by simp⟩,
    hgrows, fun _ hid => .inl hid⟩

/-! ### Operations -/

/-- An operation is complete, and reads only some nodes. What its code reads of its outputs has an
initial value, and so has what it does not assign a value to. -/
structure Wiring (needs : List NodeFact) (kind : NodeKind) (inputs : InputSet) (outputs : Outputs)
    (reads : List NodeId) : Prop where
  operation : kind.isOperation = true
  sources : ∀ id, ∀ e ∈ ({ id, kind : Node }.withInputs inputs).inputs,
    ∃ source ∈ reads, e.2 = .node source
  exposed : ∀ code, kind = .inlineCode code → ∀ p ∈ outputs.pins, p.1 ∈ Snippet.exposed code →
    .valued p.2 ∈ needs
  assigned : ∀ target ∈ outputs.targets,
    (∀ id, Node.Assigns { ({ id, kind : Node }.withInputs inputs) with outputs } target) ∨
      .valued target ∈ needs
  complete : ∀ id, Node.Complete { ({ id, kind : Node }.withInputs inputs) with outputs }

/-- The nodes among the inputs are those that it reads. -/
lemma Wiring.mem_reads {outputs : Outputs} {inputs : InputSet} {reads : List NodeId}
    (h : Wiring needs kind inputs outputs reads) {self : NodeId}
    (hid : id ∈ ({ id := self, kind : Node }.withInputs inputs).inputNodes) : id ∈ reads := by
  obtain ⟨e, he, hnode⟩ := List.mem_filterMap.1 hid
  obtain ⟨source, hsource, heq⟩ := h.sources self e he
  rw [heq] at hnode
  cases hnode
  exact hsource

/-- The operation is well wired in a graph if it reads variables and writes what may be written. -/
lemma Wiring.wellWired {outputs : Outputs} {inputs : InputSet} {reads : List NodeId}
    (h : Wiring needs kind inputs outputs reads) {opened : List NodeId} {g : Graph}
    (hneeds : ∀ fact ∈ needs, fact.Holds opened g)
    (hreads : ∀ id ∈ reads, (g.declared? id).isSome)
    (hwritable : ∀ id ∈ outputs.targets, g.Writable roots id) (self : NodeId) :
    Node.WellWired roots g { ({ id := self, kind : Node }.withInputs inputs) with outputs } where
  inputs e he := by
    obtain ⟨source, hmem, heq⟩ := h.sources self e he
    exact ⟨source, heq, hreads source hmem⟩
  exposed code hcode p hp hread := by
    have hkept : ({ id := self, kind : Node }.withInputs inputs).kind = kind :=
      Node.kind_withInputs _ inputs
    obtain ⟨v, hv, -, hvalue⟩ := hneeds _ (h.exposed code (hkept.symm.trans hcode) p hp hread)
    exact ⟨v, hv, hvalue⟩
  outputs := hwritable
  assigned target htarget := by
    refine (h.assigned target htarget).imp (fun hassigns => hassigns self) fun hfact => ?_
    obtain ⟨v, hv, -, hvalue⟩ := hneeds _ hfact
    exact ⟨v, hv, hvalue⟩
  complete := h.complete self

/-- The combination of nodes, of which there is one at least. -/
lemma Wiring.combine {ids : List NodeId} {target : NodeId}
    (hkind : kind = .add ∨ kind = .mult ∨ kind = .setFromNode) (hids : ids ≠ []) :
    Wiring needs kind (.ofNodes ids) (.single target) ids := by
  refine ⟨?_, fun id e he => ?_, ?_, fun other hother => .inl fun id => ?_, fun id => ⟨?_, ?_⟩⟩
  · rcases hkind with rfl | rfl | rfl <;> rfl
  · simp only [InputSet.ofNodes, Node.withInputs, List.nil_append, List.map_map,
      List.mem_map] at he
    obtain ⟨source, hsource, rfl⟩ := he
    exact ⟨source, hsource, rfl⟩
  · rintro code rfl
    simp at hkind
  · rw [List.mem_singleton.1 hother]
    rcases hkind with rfl | rfl | rfl <;> exact rfl
  · rw [Node.validate_eq_ok_iff]
    rcases hkind with rfl | rfl | rfl <;>
      simp [Node.withInputs, InputSet.ofNodes, NodeKind.requiredInputs, NodeKind.requiredOutputs]
  · rcases hkind with rfl | rfl | rfl <;>
      simp [Node.withInputs, InputSet.ofNodes, Outputs.first?, hids]

/-- A pin is wired to its node. -/
lemma input?_of_lookup {pins : Pins} {outputs : Outputs} {pin : String} {id source : NodeId}
    (hpin : pins.lookup pin = some source) :
    Node.input? { ({ id, kind : Node }.withInputs pins.inputs) with outputs } pin =
      some (.node source) := by
  obtain ⟨before, after, hsplit, hbefore⟩ := List.lookup_eq_some_iff.1 hpin
  have hfind : (pins.map fun p => ((some p.1, .node p.2) : Option String × Source)).find?
      (·.1 == some pin) = some (some pin, .node source) := by
    rw [hsplit, List.map_append, List.map_cons, List.find?_append, List.find?_eq_none.2,
      Option.none_or, List.find?_cons_of_pos (by simp)]
    intro e he
    obtain ⟨p, hp, rfl⟩ := List.mem_map.1 he
    have hne : pin ≠ p.1 := bne_iff_ne.1 (hbefore p hp)
    simpa using hne.symm
  rw [Node.input?, Option.map_eq_some_iff]
  refine ⟨(some pin, .node source), ?_, rfl⟩
  rw [← hfind, Pins.inputs, Node.withInputs, List.map_map]
  rfl

/-- Pins are wired if they are among the names. -/
lemma input?_isSome {pins : Pins} {outputs : Outputs} {pin : String} {id : NodeId}
    (hpin : pin ∈ pins.map (·.1)) :
    (Node.input? { ({ id, kind : Node }.withInputs pins.inputs) with outputs } pin).isSome := by
  obtain ⟨p, hp, rfl⟩ := List.mem_map.1 hpin
  rw [Node.input?, Option.isSome_map, List.find?_isSome]
  refine ⟨(some p.1, .node p.2), ?_, by simp⟩
  simp only [Node.withInputs, Pins.inputs, List.map_map, List.mem_map]
  exact ⟨p, hp, rfl⟩

/-- Pins are wired if they are among the names. -/
lemma lookup_isSome {pins : Pins} {pin : String} (hpin : pin ∈ pins.map (·.1)) :
    (pins.lookup pin).isSome := by
  obtain ⟨p, hp, rfl⟩ := List.mem_map.1 hpin
  rw [Option.isSome_iff_ne_none, Ne, List.lookup_eq_none_iff]
  intro h
  simpa using h p hp

/-- Pins are wired to their nodes. -/
lemma mem_inputs {pins : Pins} {e : Option String × Source}
    (he : e ∈ ({ id, kind : Node }.withInputs pins.inputs).inputs) :
    ∃ source ∈ pins.map (·.2), e.2 = .node source := by
  simp only [Pins.inputs, Node.withInputs, List.map_map, List.mem_map] at he
  obtain ⟨p, hp, rfl⟩ := he
  exact ⟨p.2, List.mem_map_of_mem hp, rfl⟩

/-- An operation with named pins, among them those that its kind needs. What it writes is wired to
these, or to its out-parameters. -/
lemma Wiring.named {pins outs : Pins} (hkind : kind.hasNamedPins = true)
    (hinputs : kind.requiredInputs ⊆ pins.map (·.1))
    (houtputs : kind.requiredOutputs ⊆ outs.map (·.1))
    (hassigned : ∀ target ∈ outs.map (·.2),
      (∃ pin ∈ kind.requiredOutputs, outs.lookup pin = some target) ∨
        ∃ pin ∈ kind.outPins, pins.lookup pin = some target) :
    Wiring needs kind pins.inputs (.named outs) (pins.map (·.2)) := by
  refine ⟨?_, fun id e he => mem_inputs he, ?_, fun target htarget => .inl fun id => ?_,
    fun id => ⟨?_, ?_⟩⟩
  · cases kind <;> first | rfl | exact absurd hkind Bool.false_ne_true
  · rintro code rfl
    cases hkind
  · have hwired : (∃ pin ∈ kind.requiredOutputs, outs.lookup pin = some target) ∨
        ∃ pin ∈ kind.outPins, Node.input? { ({ id, kind : Node }.withInputs pins.inputs) with
          outputs := .named outs } pin = some (.node target) :=
      (hassigned target htarget).imp_right fun ⟨pin, hpin, hlookup⟩ =>
        ⟨pin, hpin, input?_of_lookup hlookup⟩
    cases kind <;> first | exact hwired | exact absurd hkind Bool.false_ne_true
  · rw [Node.validate_eq_ok_iff]
    exact ⟨fun pin hpin => input?_isSome (hinputs hpin), fun pin hpin => lookup_isSome (houtputs hpin)⟩
  · cases kind <;> trivial

/-- An operation with named pins, among them those that its kind needs, and with the output that its
kind needs. -/
lemma Wiring.pins {pins : Pins} {pin : String} {target : NodeId} (hkind : kind.hasNamedPins = true)
    (hinputs : kind.requiredInputs ⊆ pins.map (·.1)) (houtput : kind.requiredOutputs = [pin]) :
    Wiring needs kind pins.inputs (.named [(pin, target)]) (pins.map (·.2)) := by
  refine .named hkind hinputs (houtput ▸ List.Subset.refl _) fun other hother => .inl ?_
  rw [List.map_singleton, List.mem_singleton] at hother
  exact ⟨pin, houtput ▸ List.mem_cons_self, by simp [hother]⟩

/-- A pin of a snippet is among its pins. -/
lemma mem_pins {code : String} {name : List Char}
    (hname : .pin name ∈ Snippet.parts code.toList) : String.ofList name ∈ Snippet.pins code := by
  refine List.mem_filterMap.2 ⟨.inr (String.ofList name), ?_, rfl⟩
  exact List.mem_flatMap.2 ⟨_, hname, List.mem_cons_self⟩

/-- A snippet with all the pins that it mentions. -/
lemma Wiring.snippet {pins : Pins} {pin : String} {target : NodeId} {code : String}
    (hcode : IsPlain code) (hpins : Snippet.pins code ⊆ pin :: pins.map (·.1))
    (htarget : (pin ∉ Snippet.exposed code ∧ pin ∈ Snippet.assigned code) ∨
      .valued target ∈ needs) :
    Wiring needs (.inlineCode code) pins.inputs (.named [(pin, target)]) (pins.map (·.2)) := by
  refine ⟨rfl, fun id e he => mem_inputs he, ?_, fun other hother => ?_,
    fun id => ⟨?_, hcode, fun name hname => ?_⟩⟩
  · rintro _ ⟨⟩ p hp hread
    rw [Outputs.pins, List.mem_singleton] at hp
    subst hp
    exact htarget.resolve_left fun h => h.1 hread
  · rw [Outputs.targets, List.map_singleton, List.mem_singleton] at hother
    subst hother
    exact htarget.imp_left fun h id => ⟨pin, h.2, by simp [Outputs.pins]⟩
  · rw [Node.validate_eq_ok_iff]
    simp [Node.withInputs, Pins.inputs, NodeKind.requiredInputs, NodeKind.requiredOutputs]
  · rcases List.mem_cons.1 (hpins (mem_pins hname)) with hpin | hpin
    · exact .inl (lookup_isSome (by simp [hpin, Outputs.pins]))
    · exact .inr (input?_isSome hpin)

variable {inputs : InputSet} {outputs : Outputs} {reads : List NodeId}

/-- The operation takes the variable as an out-parameter only. -/
def Hands (kind : NodeKind) (inputs : InputSet) (id : NodeId) : Prop :=
  ∀ self, Operation.Hands ⟨kind, ({ id := self, kind : Node }.withInputs inputs).inputs, []⟩ id

/-- Open variables and built-in outputs may be written. -/
lemma writable_of_meets {g : Graph} {opened : List NodeId} (h : g.Meets asks roots opened needs)
    (hid : id ∈ opened ∨ .output id ∈ needs) : g.Writable roots id := by
  rcases hid with hopen | hfact
  · obtain ⟨v, hv, hmayOpen⟩ := h.flow.declared id hopen
    refine ⟨by rw [Graph.operand?_of_declared? hv, Option.isSome_some], fun w hw => ?_⟩
    rw [hv] at hw
    cases hw
    refine hmayOpen.imp (fun hcls => ?_) fun hroot => hroot.2
    rw [Variable.localDeclaration, hcls, Option.isSome_some]
  · obtain ⟨o, ho⟩ := h.holds _ hfact
    refine ⟨by rw [Graph.operand?_eq, ho]; rfl, fun w hw => ?_⟩
    rw [Graph.declared?_eq, ho] at hw
    cases hw

/-- An operation writes open variables and built-in outputs, and closes some of the variables that it
writes. It reads what can be read, and may take what it closes as an out-parameter. -/
lemma operates (hwiring : Wiring needs kind inputs outputs reads)
    (hreads : ∀ id ∈ reads, .reads id ∈ needs ∨ (id ∈ own ∧ Hands kind inputs id))
    (htargets : ∀ id ∈ outputs.targets, id ∈ own ++ own' ∨ .output id ∈ needs)
    (hclosed : own ⊆ outputs.targets) :
    Serves asks roots needs (own ++ own') (Builder.operation kind inputs outputs)
      (fun id => .node id :: readsAll own) fun _ => own' := by
  intro g rest hmeets
  -- what stays open is open before, and it is not what the operation closes
  have hrest : own' ++ rest ⊆ own ++ own' ++ rest := by
    rw [List.append_assoc]
    exact List.subset_append_right _ _
  have hdisjoint : own.Disjoint (own' ++ rest) := by
    have hnodup := hmeets.flow.nodup
    rw [List.append_assoc] at hnodup
    exact List.disjoint_of_nodup_append hnodup
  have hown : ∀ id ∈ own, (g.declared? id).isSome := by
    intro id hid
    obtain ⟨v, hv, -⟩ := hmeets.flow.declared id
      (List.mem_append_left _ (List.mem_append_left _ hid))
    rw [hv, Option.isSome_some]
  have hsource : ∀ id ∈ reads, (g.declared? id).isSome := fun id hid =>
    (hreads id hid).elim (fun hfact => (hmeets.holds _ hfact).1) fun hmem => hown id hmem.1
  have hwritable : ∀ id ∈ outputs.targets, g.Writable roots id := fun id hid =>
    writable_of_meets hmeets ((htargets id hid).imp_left (List.mem_append_left _))
  have hwired := hwiring.wellWired hmeets.holds hsource hwritable g.size
  obtain ⟨hsound, hkinds⟩ := hmeets.sound.operation hwiring.operation hwired
  have hflow : (Builder.operation kind inputs outputs g).2.Flow roots (own' ++ rest) := by
    refine hmeets.flow.operation hmeets.sound hwiring.operation hwired (fun id hid => ?_)
      (fun id hid hmem => ?_) ?_ fun id hid => ?_
    · refine (htargets id hid).imp (List.mem_append_left _) fun hfact => ?_
      obtain ⟨o, ho⟩ := hmeets.holds _ hfact
      rw [Graph.declared?_eq, ho]
      rfl
    · rcases hreads id (hwiring.mem_reads hid) with hfact | ⟨hmem', hhands⟩
      · exact absurd hmem (hmeets.holds _ hfact).2
      · exact ⟨hdisjoint hmem', hhands g.size⟩
    · rw [List.append_assoc]
      exact List.sublist_append_right _ _
    · rw [List.append_assoc] at hid
      exact (List.mem_append.1 hid).elim (fun hmem => .inr (hclosed hmem)) .inl
  have hlater : g.Later (own ++ own' ++ rest) (Builder.operation kind inputs outputs g).2
      (own' ++ rest) := ⟨.of_kind? hkinds, fun id hid => .inl (hrest hid)⟩
  refine ⟨⟨hsound, hflow, fun hasks id hid v hv =>
    hmeets.unshared_of_grows hlater.grows hasks (hrest hid) hv, fun fact hfact => ?_⟩, hlater⟩
  rcases List.mem_cons.1 hfact with rfl | hfact
  · have hnew : (Builder.operation kind inputs outputs g).1 = g.size := rfl
    rw [NodeFact.Holds, hnew, ← not_le, ← Graph.kind?_eq_none_iff, hkinds, if_pos rfl]
    exact Option.some_ne_none kind
  · obtain ⟨id, hid, rfl⟩ := List.mem_map.1 hfact
    obtain ⟨v, hv⟩ := Option.isSome_iff_exists.1 (hown id hid)
    exact ⟨by rw [hlater.grows.declared? hv, Option.isSome_some], hdisjoint hid⟩

/-- An operation closes all that is open. -/
lemma operatesAll (hwiring : Wiring needs kind inputs outputs reads)
    (hreads : ∀ id ∈ reads, .reads id ∈ needs ∨ (id ∈ own ∧ Hands kind inputs id))
    (htargets : ∀ id ∈ outputs.targets, id ∈ own ∨ .output id ∈ needs)
    (hclosed : own ⊆ outputs.targets) :
    Serves asks roots needs own (Builder.operation kind inputs outputs)
      (fun id => .node id :: readsAll own) fun _ => [] := by
  have hserves : Serves asks roots needs (own ++ []) (Builder.operation kind inputs outputs)
      (fun id => .node id :: readsAll own) fun _ => [] :=
    operates hwiring hreads (by rwa [List.append_nil]) hclosed
  rwa [List.append_nil] at hserves

variable {f : NodeId → Builder α} {gives : α → List NodeFact} {keeps : α → List NodeId}
  {target : NodeId}

/-- An operation writes the variable that was opened last, which can be read from then on. -/
lemma write (hwiring : Wiring needs kind inputs outputs reads) (htargets : outputs.targets = [target])
    (hreads : readsAll reads ⊆ needs)
    (hf : ∀ id, Serves asks roots (.node id :: .reads target :: needs) own (f id) gives keeps) :
    Serves asks roots needs (target :: own) (Builder.operation kind inputs outputs >>= f) gives
      keeps := by
  refine bindFirst (operatesAll hwiring ?_ ?_ ?_) hf
  · exact fun id hid => .inl (hreads (List.mem_map_of_mem hid))
  · simp [htargets]
  · simp [htargets]

/-- An operation writes a built-in output. -/
lemma emit (hwiring : Wiring needs kind inputs outputs reads) (htargets : outputs.targets = [target])
    (htarget : .output target ∈ needs) (hreads : readsAll reads ⊆ needs)
    (hf : ∀ id, Serves asks roots (.node id :: needs) own (f id) gives keeps) :
    Serves asks roots needs own (Builder.operation kind inputs outputs >>= f) gives keeps := by
  refine bind (operatesAll hwiring ?_ ?_ (List.nil_subset _)) hf
  · exact fun id hid => .inl (hreads (List.mem_map_of_mem hid))
  · simpa [htargets] using htarget

/-- An operation writes the variable that was opened last, and leaves it open. -/
lemma amend (hwiring : Wiring needs kind inputs outputs reads) (htargets : outputs.targets = [target])
    (hreads : readsAll reads ⊆ needs)
    (hf : ∀ id, Serves asks roots (.node id :: needs) (target :: own) (f id) gives keeps) :
    Serves asks roots needs (target :: own) (Builder.operation kind inputs outputs >>= f) gives
      keeps := by
  have hmade : Serves asks roots needs ([] ++ [target]) (Builder.operation kind inputs outputs)
      (fun id => .node id :: readsAll []) fun _ => [target] := by
    refine operates hwiring (fun id hid => .inl (hreads (List.mem_map_of_mem hid))) ?_
      (List.nil_subset _)
    simp [htargets]
  exact bindOpen hmade (.any _) fun id _ => hf id

end Serves

end SceneShading
