import Mathlib.Tactic
import SceneShading.Proofs.Pipeline.Prevailing
import SceneShading.State.Pipeline

/-!
# Histories of pipeline states

Between the state before anything is pushed and the present one, state sets were pushed and popped,
slots appeared, defaults were replaced, and the state was applied from time to time. What is on the
stacks remembers nothing of it but the sets that are pushed now.

For a slot, each of these sets carries a value or none, and the entries of the slot are the carried
values, outermost first, pushed on an empty stack: this is `PipelineState.Piled`. Everything is said
of the entries of one slot at a time. A pushed set changes them by what it carries for the slot
(`ModeStack.grown`), a popped set undoes that (`ModeStack.shrunk`), and defaults and applications
leave them alone. `Piled.call` is the step and `Reachable.piled` the run.
-/

namespace SceneShading

/-- A call that changes a pipeline state. -/
inductive PipelineCall where
  | push (set : SharedSet)
  /-- The innermost set is popped. -/
  | pop
  | apply (generator : Generator)
  | setAttributeDefault (a : Attribute)
  | setUnitDefault (unit : Nat) (a : Attribute)
  | setUniformDefault (name : String) (value : UniformValue)

namespace PipelineState

/-- The state after a call. Without a set there is nothing to pop, and a state cannot be applied if
there is no program for it. -/
def call? (s : PipelineState) : PipelineCall → Option PipelineState
  | .push set => some (s.push set)
  | .pop => s.sets.head?.map s.pop
  | .apply generator => (s.apply generator).toOption.map (·.state)
  | .setAttributeDefault a => some (s.setAttributeDefault a)
  | .setUnitDefault unit a => some (s.setUnitDefault unit a)
  | .setUniformDefault name value => some (s.setUniformDefault name value)

/-- The states that calls make of the state before anything is pushed. -/
inductive Reachable : PipelineState → Prop where
  | initial : Reachable initial
  | call {s s' : PipelineState} (c : PipelineCall) :
      Reachable s → s.call? c = some s' → Reachable s'

/-- The state after several calls. -/
def callAll? (s : PipelineState) (calls : List PipelineCall) : Option PipelineState :=
  calls.foldlM call? s

/-- Several calls, one after another, lead from a reachable state to a reachable state. -/
lemma Reachable.of_callAll? {s s' : PipelineState} {calls : List PipelineCall} (h : s.Reachable)
    (hs' : s.callAll? calls = some s') : s'.Reachable := by
  induction calls generalizing s with
  | nil =>
    obtain rfl := Option.some.inj hs'
    exact h
  | cons c calls ih =>
    obtain ⟨u, hu, hs'⟩ := Option.bind_eq_some_iff.1 hs'
    exact ih (h.call c hu) hs'

end PipelineState

/-! ## What sets carry -/

namespace SharedSet

/-- What a set carries for a key. -/
def attribute? (set : SharedSet) (key : AttributeKey) : Option (HeldAttribute × Mode) :=
  (set.content.entryAt? key).map set.hold

/-- What a set carries for a kind in a texture unit. -/
def unitAttribute? (set : SharedSet) (unit : Nat) (kind : Kind) : Option (HeldAttribute × Mode) :=
  (set.content.unitEntryAt? unit kind).map set.hold

/-- What a set carries for a uniform. -/
def uniform? (set : SharedSet) (name : String) : Option (UniformValue × Mode) :=
  set.content.uniform? name

end SharedSet

/-- What sets carry for a slot, outermost set first; the sets themselves come innermost first. -/
def carried {α : Type} (value? : SharedSet → Option (α × Mode)) (sets : List SharedSet) :
    List (α × Mode) :=
  sets.reverse.filterMap value?

namespace ModeStack

variable {α : Type}

/-- The entries of a stack after a set was pushed that carries a value for it or none. -/
def grown (entries : List (α × Mode)) (value : Option (α × Mode)) : List (α × Mode) :=
  value.elim entries fun v => prevailing entries v :: entries

/-- The entries of a stack after a set was popped that carries a value for it or none. -/
def shrunk {β : Type} (entries : List (α × Mode)) (value : Option β) : List (α × Mode) :=
  value.elim entries fun _ => entries.tail

/-- Popping a set undoes pushing it, however its value is held on the stack. -/
lemma shrunk_grown_map {β : Type} (entries : List (α × Mode)) (value : Option β)
    (hold : β → α × Mode) : shrunk (grown entries (value.map hold)) value = entries := by
  cases value <;> rfl

/-- Popping a set undoes pushing it. -/
lemma shrunk_grown (entries : List (α × Mode)) (value : Option (α × Mode)) :
    shrunk (grown entries value) value = entries := by
  cases value <;> rfl

/-- From a stack without entries nothing is popped. -/
@[simp] lemma shrunk_nil {β : Type} (value : Option β) :
    shrunk ([] : List (α × Mode)) value = [] := by
  cases value <;> rfl

/-- One more set grows the pile by what it carries. -/
lemma piled_carried_cons (value? : SharedSet → Option (α × Mode)) (set : SharedSet)
    (sets : List SharedSet) :
    piled (carried value? (set :: sets)) = grown (piled (carried value? sets)) (value? set) := by
  have hcarried : carried value? (set :: sets) = carried value? sets ++ (value? set).toList := by
    rw [carried, List.reverse_cons, List.filterMap_append, carried]
    cases h : value? set <;> simp [h]
  rw [hcarried]
  cases value? set with
  | none => exact congrArg piled (List.append_nil (carried value? sets))
  | some v => exact piled_concat (carried value? sets) v

end ModeStack

namespace PipelineState

/-! ## Entries of slots -/

section Entries

variable {κ σ α : Type} [DecidableEq κ] (stack : σ → ModeStack α)

/-- The entries on the stack of a key; there are none if the key has no slot. -/
def stackEntries (slots : Table κ σ) (key : κ) : List (α × Mode) :=
  (slots.find? key).elim [] fun slot => (stack slot).entries

/-- A slot that is changed or made: its entries change, starting from none, and the other slots keep
theirs. -/
lemma stackEntries_upsert (initial : σ) (f : σ → σ) (change : List (α × Mode) → List (α × Mode))
    (hinitial : (stack initial).entries = [])
    (hf : ∀ slot, (stack (f slot)).entries = change (stack slot).entries)
    (slots : Table κ σ) (k key : κ) :
    stackEntries stack (slots.upsert k initial f) key =
      if k = key then change (stackEntries stack slots key) else stackEntries stack slots key := by
  rw [stackEntries, Table.find?_upsert, stackEntries]
  by_cases h : k = key
  · subst h
    rw [if_pos rfl, if_pos rfl, Option.elim_some, hf]
    cases slots.find? k with
    | none => exact congrArg change hinitial
    | some slot => rfl
  · rw [if_neg h, if_neg (Ne.symm h)]

/-- A slot that is changed if it is there: its entries change, and the other slots keep theirs. -/
lemma stackEntries_modify {f : σ → σ} (change : List (α × Mode) → List (α × Mode))
    (hnil : change [] = [])
    (hf : ∀ slot, (stack (f slot)).entries = change (stack slot).entries)
    (slots : Table κ σ) (k key : κ) :
    stackEntries stack (slots.modify k f) key =
      if k = key then change (stackEntries stack slots key) else stackEntries stack slots key := by
  rw [stackEntries, Table.find?_modify, stackEntries]
  by_cases h : k = key
  · subst h
    rw [if_pos rfl, if_pos rfl]
    cases slots.find? k with
    | none => exact hnil.symm
    | some slot => exact hf slot
  · rw [if_neg h, if_neg (Ne.symm h)]

end Entries

/-- The entries on the stack of a key. -/
def attributeEntries (s : PipelineState) (key : AttributeKey) : List (HeldAttribute × Mode) :=
  stackEntries AttributeSlot.stack s.attributes key

/-- The entries on the stack of a kind in one of some texture units. -/
def entriesInUnit (units : List (Table Kind AttributeSlot)) (unit : Nat) (kind : Kind) :
    List (HeldAttribute × Mode) :=
  units[unit]?.elim [] fun slots => stackEntries AttributeSlot.stack slots kind

/-- The entries on the stack of a kind in a texture unit. -/
def unitEntries (s : PipelineState) (unit : Nat) (kind : Kind) : List (HeldAttribute × Mode) :=
  entriesInUnit s.units unit kind

/-- The entries on the stack of a uniform. -/
def uniformEntries (s : PipelineState) (name : String) : List (UniformValue × Mode) :=
  stackEntries UniformSlot.stack s.uniforms name

/-! ## Pushing -/

/-- A pushed set grows the stack of every key by what it has for the key. -/
lemma stackEntries_pushAttributes {κ : Type} [DecidableEq κ] (set : SharedSet)
    (entries : Table κ SetEntry) (slots : Table κ AttributeSlot) (defaults : Nat) (key : κ) :
    stackEntries AttributeSlot.stack (pushAttributes set entries slots defaults).1 key =
      ModeStack.grown (stackEntries AttributeSlot.stack slots key)
        ((entries.find? key).map set.hold) := by
  have hfold := Table.view_foldl (fun c : Table κ AttributeSlot × Nat =>
      stackEntries AttributeSlot.stack c.1 key)
    (fun c e =>
      (c.1.upsert e.1 (newSlot c.2 e.2.value) fun s =>
        { s with stack := s.stack.push (set.hold e.2) }, c.2 + 1))
    (fun entry held => ModeStack.prevailing held (set.hold entry) :: held) key
    (fun c e => stackEntries_upsert AttributeSlot.stack _ _
      (fun held => ModeStack.prevailing held (set.hold e.2) :: held) rfl
      (fun _ => rfl) c.1 e.1 key)
    entries (slots, defaults)
  rw [pushAttributes]
  refine hfold.trans ?_
  cases entries.find? key <;> rfl

/-- A pushed set grows the stack of every uniform by what it has for the uniform. -/
lemma stackEntries_pushUniforms (set : Table String (UniformValue × Mode))
    (slots : Table String UniformSlot) (name : String) :
    stackEntries UniformSlot.stack (pushUniforms set slots) name =
      ModeStack.grown (stackEntries UniformSlot.stack slots name) (set.find? name) :=
  Table.view_foldl (fun slots => stackEntries UniformSlot.stack slots name) _
    (fun value entries => ModeStack.prevailing entries value :: entries) name
    (fun slots e => stackEntries_upsert UniformSlot.stack _ _
      (fun entries => ModeStack.prevailing entries e.2 :: entries) rfl (fun _ => rfl)
      slots e.1 name)
    set slots

/-- The units that are added hold no entries. -/
lemma entriesInUnit_growTables (units : List (Table Kind AttributeSlot)) (length unit : Nat)
    (kind : Kind) :
    entriesInUnit (growTables units length) unit kind = entriesInUnit units unit kind := by
  rw [entriesInUnit, growTables, List.getElem?_append, List.getElem?_replicate, entriesInUnit]
  by_cases hlt : unit < units.length
  · rw [if_pos hlt]
  · rw [if_neg hlt, List.getElem?_eq_none (Nat.le_of_not_lt hlt)]
    split <;> rfl

/-- A pushed set grows the stack of every kind in every unit by what it has for them, if there are
units for all that it has. -/
lemma entriesInUnit_pushUnits (set : SharedSet) (tables : List (Table Kind SetEntry))
    (units : List (Table Kind AttributeSlot)) (defaults : Nat) (hle : tables.length ≤ units.length)
    (unit : Nat) (kind : Kind) :
    entriesInUnit (pushUnits set tables units defaults).1 unit kind =
      ModeStack.grown (entriesInUnit units unit kind)
        ((tables[unit]?.bind (·.find? kind)).map set.hold) := by
  induction tables generalizing units defaults unit with
  | nil => rfl
  | cons entries tables ih =>
    cases units with
    | nil => exact absurd hle (Nat.not_succ_le_zero tables.length)
    | cons slots units =>
      cases unit with
      | zero => exact stackEntries_pushAttributes set entries slots defaults kind
      | succ unit => exact ih units _ (Nat.le_of_succ_le_succ hle) unit

/-! ## Popping -/

/-- A popped set shrinks the stack of every key that it has a value for. -/
lemma stackEntries_popAttributes {κ β : Type} [DecidableEq κ] (set : Table κ β)
    (slots : Table κ AttributeSlot) (key : κ) :
    stackEntries AttributeSlot.stack (popAttributes set slots) key =
      ModeStack.shrunk (stackEntries AttributeSlot.stack slots key) (set.find? key) := by
  rw [popAttributes, Table.keys, List.foldl_map]
  exact Table.view_foldl (fun slots => stackEntries AttributeSlot.stack slots key) _
    (fun _ entries => entries.tail) key
    (fun slots e => stackEntries_modify AttributeSlot.stack List.tail rfl (fun _ => rfl)
      slots e.1 key)
    set slots

/-- A popped set shrinks the stack of every uniform that it has a value for. -/
lemma stackEntries_popUniforms {β : Type} (set : Table String β) (slots : Table String UniformSlot)
    (name : String) :
    stackEntries UniformSlot.stack (popUniforms set slots) name =
      ModeStack.shrunk (stackEntries UniformSlot.stack slots name) (set.find? name) := by
  rw [popUniforms, Table.keys, List.foldl_map]
  exact Table.view_foldl (fun slots => stackEntries UniformSlot.stack slots name) _
    (fun _ entries => entries.tail) name
    (fun slots e => stackEntries_modify UniformSlot.stack List.tail rfl (fun _ => rfl)
      slots e.1 name)
    set slots

/-- A popped set shrinks the stack of every kind in every unit that it has a value for. Where it has
a unit that the state has not, there is nothing to shrink. -/
lemma entriesInUnit_popUnits {β : Type} (sets : List (Table Kind β))
    (units : List (Table Kind AttributeSlot)) (unit : Nat) (kind : Kind) :
    entriesInUnit (popUnits sets units) unit kind =
      ModeStack.shrunk (entriesInUnit units unit kind) (sets[unit]?.bind (·.find? kind)) := by
  induction sets generalizing units unit with
  | nil => rfl
  | cons set sets ih =>
    cases units with
    | nil => exact (ModeStack.shrunk_nil _).symm
    | cons slots units =>
      cases unit with
      | zero => exact stackEntries_popAttributes set slots kind
      | succ unit => exact ih units unit

/-! ## Defaults and applications -/

/-- What an application comes to: a program is chosen, what was pending is settled, and the device is
told of both. -/
lemma of_apply {s : PipelineState} {generator : Generator} {a : Application}
    (h : s.apply generator = .ok a) :
    ∃ p, generator.programFor s.request = .ok (p, a.generator) ∧
      a.state = { s.settled with program := if s.isBound p then s.program else some p } ∧
      a.events = s.attributeEvents ++ s.programEvents p ++ s.uniformEvents := by
  rw [apply] at h
  cases hprogram : generator.programFor s.request with
  | error fault =>
    rw [hprogram] at h
    cases h
  | ok chosen =>
    rw [hprogram] at h
    obtain rfl := Except.ok.inj h
    exact ⟨chosen.1, rfl, rfl, rfl⟩

/-- A new default leaves the entries alone. -/
lemma stackEntries_setDefault {κ : Type} [DecidableEq κ] (slots : Table κ AttributeSlot) (k : κ)
    (held : HeldAttribute) (key : κ) :
    stackEntries AttributeSlot.stack (setDefault slots k held) key =
      stackEntries AttributeSlot.stack slots key :=
  (stackEntries_upsert AttributeSlot.stack { fallback := held }
    (fun s => { s with fallback := held, stack := s.stack.mark true }) id rfl (fun _ => rfl)
    slots k key).trans (ite_self _)

/-- Giving the device what was pending leaves the entries alone. -/
lemma stackEntries_settle {κ : Type} [DecidableEq κ] (slots : Table κ AttributeSlot) (key : κ) :
    stackEntries AttributeSlot.stack (settle slots) key =
      stackEntries AttributeSlot.stack slots key := by
  rw [stackEntries, settle, Table.find?_mapValues, stackEntries]
  cases slots.find? key <;> rfl

/-- A new default in a unit leaves the entries of the units alone. -/
lemma entriesInUnit_setUnitDefault (s : PipelineState) (n : Nat) (a : Attribute) (unit : Nat)
    (kind : Kind) : (s.setUnitDefault n a).unitEntries unit kind = s.unitEntries unit kind := by
  change entriesInUnit ((growTables s.units (n + 1)).modify n _) unit kind = _
  rw [unitEntries, ← entriesInUnit_growTables s.units (n + 1), entriesInUnit, List.getElem?_modify,
    entriesInUnit]
  cases (growTables s.units (n + 1))[unit]? with
  | none => rfl
  | some slots =>
    by_cases h : n = unit
    · subst h
      simpa using stackEntries_setDefault slots a.kind _ kind
    · simp [h]

/-! ## Entries of states -/

variable (s : PipelineState) (set : SharedSet)

/-- A pushed set grows the stack of a key by what it carries for the key. -/
lemma attributeEntries_push (key : AttributeKey) : (s.push set).attributeEntries key =
    ModeStack.grown (s.attributeEntries key) (set.attribute? key) :=
  stackEntries_pushAttributes set set.content.attributes s.attributes s.defaults key

/-- A pushed set grows the stack of a kind in a unit by what it carries there. -/
lemma unitEntries_push (unit : Nat) (kind : Kind) : (s.push set).unitEntries unit kind =
    ModeStack.grown (s.unitEntries unit kind) (set.unitAttribute? unit kind) := by
  change entriesInUnit (pushUnits set set.content.units _ _).1 unit kind = _
  have hle : set.content.units.length ≤ (growTables s.units set.content.units.length).length := by
    rw [length_growTables]
    exact Nat.le_max_right s.units.length set.content.units.length
  rw [entriesInUnit_pushUnits set _ _ _ hle, entriesInUnit_growTables]
  rfl

/-- A pushed set grows the stack of a uniform by what it carries for the uniform. -/
lemma uniformEntries_push (name : String) : (s.push set).uniformEntries name =
    ModeStack.grown (s.uniformEntries name) (set.uniform? name) :=
  stackEntries_pushUniforms set.content.uniforms s.uniforms name

/-- A popped set shrinks the stack of a key that it carries a value for. -/
lemma attributeEntries_pop (key : AttributeKey) : (s.pop set).attributeEntries key =
    ModeStack.shrunk (s.attributeEntries key) (set.content.entryAt? key) :=
  stackEntries_popAttributes set.content.attributes s.attributes key

/-- A popped set shrinks the stack of a kind in a unit that it carries a value for. -/
lemma unitEntries_pop (unit : Nat) (kind : Kind) : (s.pop set).unitEntries unit kind =
    ModeStack.shrunk (s.unitEntries unit kind) (set.content.unitEntryAt? unit kind) :=
  entriesInUnit_popUnits set.content.units s.units unit kind

/-- A popped set shrinks the stack of a uniform that it carries a value for. -/
lemma uniformEntries_pop (name : String) : (s.pop set).uniformEntries name =
    ModeStack.shrunk (s.uniformEntries name) (set.content.uniform? name) :=
  stackEntries_popUniforms set.content.uniforms s.uniforms name

/-- Giving the device what was pending leaves the entries of the units alone. -/
lemma unitEntries_settled (unit : Nat) (kind : Kind) :
    s.settled.unitEntries unit kind = s.unitEntries unit kind := by
  change entriesInUnit (s.units.map settle) unit kind = _
  rw [entriesInUnit, List.getElem?_map, unitEntries, entriesInUnit]
  cases s.units[unit]? with
  | none => rfl
  | some slots => exact stackEntries_settle slots kind

/-! ## The pile -/

/-- Every stack holds what the pushed sets carry for it, piled up from the outermost set on. -/
structure Piled (s : PipelineState) : Prop where
  attributes : ∀ key, s.attributeEntries key = ModeStack.piled (carried (·.attribute? key) s.sets)
  units : ∀ unit kind,
    s.unitEntries unit kind = ModeStack.piled (carried (·.unitAttribute? unit kind) s.sets)
  uniforms : ∀ name, s.uniformEntries name = ModeStack.piled (carried (·.uniform? name) s.sets)

/-- Before anything is pushed the stacks are empty. -/
lemma piled_initial : Piled initial where
  attributes _ := rfl
  units _ _ := rfl
  uniforms name := by
    rw [uniformEntries, stackEntries, initial, Table.find?_insert]
    split <;> rfl

/-- A state with the same sets and the same entries is piled up in the same way. -/
lemma Piled.of_eq {s s' : PipelineState} (hs : s.Piled) (hsets : s'.sets = s.sets)
    (hattributes : ∀ key, s'.attributeEntries key = s.attributeEntries key)
    (hunits : ∀ unit kind, s'.unitEntries unit kind = s.unitEntries unit kind)
    (huniforms : ∀ name, s'.uniformEntries name = s.uniformEntries name) : s'.Piled where
  attributes key := by rw [hattributes, hs.attributes, hsets]
  units unit kind := by rw [hunits, hs.units, hsets]
  uniforms name := by rw [huniforms, hs.uniforms, hsets]

/-- A pushed set goes on top of the pile. -/
lemma Piled.push {s : PipelineState} (hs : s.Piled) (set : SharedSet) : (s.push set).Piled where
  attributes key := by
    change _ = ModeStack.piled (carried _ (set :: s.sets))
    rw [attributeEntries_push, ModeStack.piled_carried_cons, ← hs.attributes]
  units unit kind := by
    change _ = ModeStack.piled (carried _ (set :: s.sets))
    rw [unitEntries_push, ModeStack.piled_carried_cons, ← hs.units]
  uniforms name := by
    change _ = ModeStack.piled (carried _ (set :: s.sets))
    rw [uniformEntries_push, ModeStack.piled_carried_cons, ← hs.uniforms]

/-- Popping the innermost set takes off the pile what the set had put there. -/
lemma Piled.pop {s : PipelineState} (hs : s.Piled) {set : SharedSet}
    (hset : s.sets.head? = some set) : (s.pop set).Piled := by
  have hsets : s.sets = set :: s.sets.tail := (List.eq_cons_of_mem_head? hset)
  refine ⟨fun key => ?_, fun unit kind => ?_, fun name => ?_⟩
  · rw [attributeEntries_pop, hs.attributes, hsets, ModeStack.piled_carried_cons]
    exact ModeStack.shrunk_grown_map _ _ set.hold
  · rw [unitEntries_pop, hs.units, hsets, ModeStack.piled_carried_cons]
    exact ModeStack.shrunk_grown_map _ _ set.hold
  · rw [uniformEntries_pop, hs.uniforms, hsets, ModeStack.piled_carried_cons]
    exact ModeStack.shrunk_grown _ _

/-- Giving the device what was pending leaves the pile alone, whatever program is bound. -/
lemma Piled.settled {s : PipelineState} (hs : s.Piled) (program : Option Program) :
    ({ s.settled with program } : PipelineState).Piled :=
  hs.of_eq rfl (stackEntries_settle s.attributes) s.unitEntries_settled fun _ => rfl

/-- A default for a unit leaves the pile alone. -/
lemma Piled.setUnitDefault {s : PipelineState} (hs : s.Piled) (unit : Nat) (a : Attribute) :
    (s.setUnitDefault unit a).Piled :=
  hs.of_eq rfl (fun _ => rfl) (entriesInUnit_setUnitDefault s unit a) (fun _ => rfl)

/-- A default for a key leaves the pile alone. -/
lemma Piled.setAttributeDefault {s : PipelineState} (hs : s.Piled) (a : Attribute) :
    (s.setAttributeDefault a).Piled := by
  rw [PipelineState.setAttributeDefault]
  split
  · exact hs.setUnitDefault 0 a
  · exact hs.of_eq rfl (stackEntries_setDefault s.attributes a.key _) (fun _ _ => rfl)
      (fun _ => rfl)

/-- A default for a uniform leaves the pile alone. -/
lemma Piled.setUniformDefault {s : PipelineState} (hs : s.Piled) (name : String)
    (value : UniformValue) : (s.setUniformDefault name value).Piled := by
  refine hs.of_eq rfl (fun _ => rfl) (fun _ _ => rfl) (fun name' => ?_)
  have hname := stackEntries_upsert UniformSlot.stack { fallback := value }
    (fun u => { u with fallback := value }) id rfl (fun _ => rfl) s.uniforms name name'
  exact hname.trans (ite_self _)

/-- **What a call keeps.** -/
theorem Piled.call {s s' : PipelineState} (hs : s.Piled) {c : PipelineCall}
    (h : s.call? c = some s') : s'.Piled := by
  cases c with
  | push set =>
    obtain rfl := Option.some.inj h
    exact hs.push set
  | pop =>
    obtain ⟨set, hset, rfl⟩ := Option.map_eq_some_iff.1 h
    exact hs.pop hset
  | apply generator =>
    obtain ⟨application, happly, rfl⟩ := Option.map_eq_some_iff.1 h
    cases hresult : s.apply generator with
    | error fault =>
      rw [hresult] at happly
      cases happly
    | ok result =>
      rw [hresult] at happly
      obtain rfl := Option.some.inj happly
      obtain ⟨p, -, hstate, -⟩ := of_apply hresult
      rw [hstate]
      exact hs.settled _
  | setAttributeDefault a =>
    obtain rfl := Option.some.inj h
    exact hs.setAttributeDefault a
  | setUnitDefault unit a =>
    obtain rfl := Option.some.inj h
    exact hs.setUnitDefault unit a
  | setUniformDefault name value =>
    obtain rfl := Option.some.inj h
    exact hs.setUniformDefault name value

/-- **What a history amounts to.** -/
theorem Reachable.piled {s : PipelineState} (h : s.Reachable) : s.Piled := by
  induction h with
  | initial => exact piled_initial
  | call c _ hcall ih => exact ih.call hcall

end PipelineState

end SceneShading
