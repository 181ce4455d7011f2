import Mathlib.Tactic
import SceneShading.Proofs.Pipeline.Active
import SceneShading.Proofs.Pipeline.History

/-!
# What a pipeline state shows

What can be read off a pipeline state is what the pushed sets amount to. For every slot, the stack
has an entry for each value that the pushed sets carry for it, and the value that prevails is on top
(`Resolves`). A value on top of an attribute stack shows unless its mode is empty.

Two states in which the same sets are pushed cannot be told apart (`LooksLike`), whatever happened
to them before: they show the same values and the same material, and a generator chooses the same
program for both of them, at once or later.
-/

namespace SceneShading

/-- A stack that has an entry for each of the values carried for it, outermost value first, and the
value that prevails on top. -/
structure Resolves {α : Type} (entries values : List (α × Mode)) : Prop where
  length_eq : entries.length = values.length
  head?_eq : entries.head? = ModeStack.prevailing? values

/-- The pile of values resolves them. -/
lemma resolves_piled {α : Type} (values : List (α × Mode)) :
    Resolves (ModeStack.piled values) values :=
  ⟨ModeStack.length_piled values, ModeStack.head?_piled values⟩

/-- What an entry on top of an attribute stack shows: its value, unless its mode is empty. -/
def shown (entry : HeldAttribute × Mode) : Option Attribute :=
  if entry.2.isEmpty then none else some entry.1.value

/-- A slot shows what its top entry shows. -/
lemma AttributeSlot.map_active? (slot : AttributeSlot) :
    slot.active?.map (·.value) = slot.stack.entries.head?.bind shown := by
  rw [AttributeSlot.active?, ModeStack.top?]
  cases slot.stack.entries.head? with
  | none => rfl
  | some entry =>
    rw [Option.bind_some, shown]
    cases h : entry.2.isEmpty <;> simp [h]

namespace PipelineState

/-! ## Reading -/

/-- What is active for a key is what the top entry shows. -/
lemma activeAt?_eq {κ : Type} [DecidableEq κ] (slots : Table κ AttributeSlot) (key : κ) :
    activeAt? slots key = (stackEntries AttributeSlot.stack slots key).head?.bind shown := by
  rw [activeAt?, stackEntries]
  cases slots.find? key with
  | none => rfl
  | some slot => exact slot.map_active?

/-- The active attribute of a key is what the top entry shows. -/
lemma attribute?_eq (s : PipelineState) (key : AttributeKey) :
    s.attribute? key = (s.attributeEntries key).head?.bind shown :=
  activeAt?_eq s.attributes key

/-- The active attribute of a kind in a unit is what the top entry shows. -/
lemma unitAttribute?_eq_bind (s : PipelineState) (unit : Nat) (kind : Kind) :
    s.unitAttribute? unit kind = (s.unitEntries unit kind).head?.bind shown := by
  rw [unitAttribute?_eq, activeAt?_eq, unitSlots, unitEntries, entriesInUnit]
  cases s.units[unit]? <;> rfl

/-- The value that sets give a uniform is the top entry. -/
lemma uniform?_eq (s : PipelineState) (name : String) :
    s.uniform? name = (s.uniformEntries name).head? := by
  rw [uniform?, uniformEntries, stackEntries]
  cases s.uniforms.find? name <;> rfl

/-! ## States that look alike -/

/-- States that cannot be told apart: they have the same entries on all stacks, show the same
attributes, uniforms and material, and get the same program. -/
structure LooksLike (s s' : PipelineState) : Prop where
  attributeEntries : ∀ key, s.attributeEntries key = s'.attributeEntries key
  unitEntries : ∀ unit kind, s.unitEntries unit kind = s'.unitEntries unit kind
  uniformEntries : ∀ name, s.uniformEntries name = s'.uniformEntries name
  attribute? : ∀ key, s.attribute? key = s'.attribute? key
  unitAttribute? : ∀ unit kind, s.unitAttribute? unit kind = s'.unitAttribute? unit kind
  uniform? : ∀ name, s.uniform? name = s'.uniform? name
  activeAttributes : s.activeAttributes = s'.activeAttributes
  material? : s.material? = s'.material?
  /-- Any generator chooses the same program for both, or fails for both. -/
  program : ∀ g : Generator, g.programFor s.request = g.programFor s'.request
  /-- What a generator chose for one it chooses later on for the other. -/
  programLater : ∀ {g g₁ g₂ : Generator} {p : Program}, g.programFor s.request = .ok (p, g₁) →
    g₁.Later g₂ → g₂.programFor s'.request = .ok (p, g₂)
  /-- Generators with the same context choose programs with the same key, whatever they keep. -/
  programKey : ∀ {g g₁ g' g₁' : Generator} {p p' : Program}, g.context = g'.context →
    g.programFor s.request = .ok (p, g₁) → g'.programFor s'.request = .ok (p', g₁') →
    p.key = p'.key

/-- States in which the same sets are piled up look alike. -/
theorem Piled.looksLike {s s' : PipelineState} (hs : s.Piled) (hs' : s'.Piled)
    (hsets : s.sets = s'.sets) : s.LooksLike s' := by
  have hattributes : ∀ key, s.attributeEntries key = s'.attributeEntries key := fun key => by
    rw [hs.attributes, hs'.attributes, hsets]
  have hunits : ∀ unit kind, s.unitEntries unit kind = s'.unitEntries unit kind :=
    fun unit kind => by rw [hs.units, hs'.units, hsets]
  have huniforms : ∀ name, s.uniformEntries name = s'.uniformEntries name := fun name => by
    rw [hs.uniforms, hs'.uniforms, hsets]
  have hattribute : ∀ key, s.attribute? key = s'.attribute? key := fun key => by
    rw [attribute?_eq, attribute?_eq, hattributes]
  have hunit : ∀ unit kind, s.unitAttribute? unit kind = s'.unitAttribute? unit kind :=
    fun unit kind => by rw [unitAttribute?_eq_bind, unitAttribute?_eq_bind, hunits]
  have hmaterial : s.material? = s'.material? := by
    rw [PipelineState.material?, PipelineState.material?, hsets]
  have hprogram : ∀ g : Generator, g.programFor s.request = g.programFor s'.request :=
    (request_alike hattribute hunit hmaterial).programFor_eq
  refine ⟨hattributes, hunits, huniforms, hattribute, hunit, fun name => ?_,
    activeAttributes_congr hattribute, hmaterial, hprogram, fun {g g₁ g₂ p} hp hlater => ?_,
    fun {g g₁ g' g₁' p p'} hcontext hp hp' => ?_⟩
  · rw [uniform?_eq, uniform?_eq, huniforms]
  · rw [← hprogram]
    exact hlater.programFor_eq hp
  · rw [← hprogram] at hp'
    rw [Generator.key_of_programFor hp, Generator.key_of_programFor hp', Generator.keyOf, hcontext,
      Generator.keyOf]

/-- **What a pipeline state shows is decided by the pushed sets.** After any calls, every stack
resolves what the pushed sets carry for it; attributes and uniforms are read off its top; the active
attributes are listed with strictly increasing keys, each key with its active value; and a state
with the same sets, however it came about, looks alike. -/
theorem Reachable.determined_by_sets {s : PipelineState} (h : s.Reachable) :
    (∀ key, Resolves (s.attributeEntries key) (carried (·.attribute? key) s.sets) ∧
      s.attribute? key =
        (ModeStack.prevailing? (carried (·.attribute? key) s.sets)).bind shown) ∧
    (∀ unit kind,
      Resolves (s.unitEntries unit kind) (carried (·.unitAttribute? unit kind) s.sets) ∧
      s.unitAttribute? unit kind =
        (ModeStack.prevailing? (carried (·.unitAttribute? unit kind) s.sets)).bind shown) ∧
    (∀ name, Resolves (s.uniformEntries name) (carried (·.uniform? name) s.sets) ∧
      s.uniform? name = ModeStack.prevailing? (carried (·.uniform? name) s.sets)) ∧
    (∃ active : List (AttributeKey × Attribute),
      s.activeAttributes = active.map (·.2) ∧
      active.Pairwise (fun a b => AttributeKey.lt a.1 b.1) ∧
      ∀ key a, (key, a) ∈ active ↔ s.attribute? key = some a) ∧
    ∀ s' : PipelineState, s'.Reachable → s'.sets = s.sets → s'.LooksLike s := by
  have hs : s.Piled := h.piled
  refine ⟨fun key => ?_, fun unit kind => ?_, fun name => ?_, ?_, fun s' h' hsets => ?_⟩
  · rw [attribute?_eq, hs.attributes, ModeStack.head?_piled]
    exact ⟨resolves_piled _, rfl⟩
  · rw [unitAttribute?_eq_bind, hs.units, ModeStack.head?_piled]
    exact ⟨resolves_piled _, rfl⟩
  · rw [uniform?_eq, hs.uniforms, ModeStack.head?_piled]
    exact ⟨resolves_piled _, rfl⟩
  · exact ⟨activeEntries AttributeKey.lt s.attributes, rfl,
      activeEntries_pairwise s.attributes orderedBy_lt, fun _ _ => mem_activeEntries⟩
  · exact h'.piled.looksLike hs hsets

/-- A set with a depth test, which overrides those of inner sets. -/
def overridingSet : SharedSet :=
  ⟨0, ({} : StateSet).setAttribute (.depth { writeMask := false }) ⟨true, true, false⟩⟩

/-- A set with a depth test and a texture. -/
def plainSet : SharedSet :=
  ⟨1, (({} : StateSet).setAttribute (.depth {}) .on).setUnitAttribute 1 (.texture {}) .on⟩

/-- A state that was reached by pushing two sets. -/
def straight : PipelineState := (initial.push overridingSet).push plainSet

/-- A state with the same sets that was reached in a roundabout way: a default was given to a unit
that no set touches, and the inner set was pushed and popped before. -/
def roundabout : PipelineState :=
  ((((initial.setUnitDefault 3 (.texture {})).push plainSet).pop plainSet).push overridingSet).push
    plainSet

/-- The state of two pushed sets is reachable. -/
lemma reachable_straight : straight.Reachable :=
  Reachable.initial.of_callAll? (show initial.callAll? [.push overridingSet, .push plainSet] = _
    from rfl)

/-- The state that was reached in a roundabout way is reachable. -/
lemma reachable_roundabout : roundabout.Reachable :=
  Reachable.initial.of_callAll? (show initial.callAll? [.setUnitDefault 3 (.texture {}),
    .push plainSet, .pop, .push overridingSet, .push plainSet] = _ from rfl)

/-- The depth test of the outer set shows although the inner set has one as well, and the two states
look alike although one of them has more texture units. -/
theorem determined_by_sets_straight : straight.Reachable ∧ roundabout.Reachable ∧
    roundabout.sets = straight.sets ∧ roundabout.units.length = 4 ∧ straight.units.length = 2 ∧
    (straight.attributeEntries ⟨.depth, 0⟩).length = 2 ∧
    straight.attribute? ⟨.depth, 0⟩ = some (.depth { writeMask := false }) ∧
    roundabout.LooksLike straight := by
  obtain ⟨hattribute, -, -, -, hlooks⟩ := Reachable.determined_by_sets reachable_straight
  obtain ⟨hresolves, hshown⟩ := hattribute ⟨.depth, 0⟩
  exact ⟨reachable_straight, reachable_roundabout, rfl, rfl, rfl, hresolves.length_eq, hshown,
    hlooks roundabout reachable_roundabout rfl⟩

end PipelineState

end SceneShading
