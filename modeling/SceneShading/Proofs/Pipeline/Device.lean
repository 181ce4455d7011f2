import Mathlib.Tactic
import SceneShading.Proofs.Pipeline.History
import SceneShading.Proofs.Pipeline.Sharing
import SceneShading.Proofs.Pipeline.Slots
import SceneShading.Proofs.Program.Cache

/-!
# What the device is told

A session is a pipeline state together with all that its device was told and with all generators that
there are. State sets are pushed and popped in any order, defaults are replaced, the generators are at
work, and from time to time the state is applied with one of them.

At any moment the state is in step with what was told (`Session.InStep`): every slot is in step with
the last value that was sent for it, for a slot that does not exist nothing was sent, and the bound
program is the last one that was bound, which every generator tells from those that it makes. Each
step of a session keeps it so (`Session.InStep.step`), and what an application tells follows from it: a
slot is sent its effective value exactly if that is not the last value sent for it, and the program is
bound exactly if it is not the last one bound (`Session.Reachable.apply_tells_changes`).

Values and programs are compared by where they come from. That this never confuses two of them is no
assumption: a value of a slot is known by the set or the default that it was made for
(`SharedSets.entry`), and a program by its maker and its number (`Generator.Numbered.eq_of_isSame`).
-/

namespace SceneShading

/-! ## What was sent for a slot -/

namespace Event

/-- The slot that a value is sent for. -/
def slotName (held : HeldAttribute) : Option Nat → SlotName
  | none => .ofKey held.value.key
  | some unit => .ofUnit unit held.value.kind

/-- The value that an event sends for a slot. -/
def sentFor? (name : SlotName) : Event → Option HeldAttribute
  | .attribute held unit => if slotName held unit = name then some held else none
  | .program _ | .uniform .. | .draw _ => none

/-- The program that an event binds. -/
def bound? : Event → Option Program
  | .program p => some p
  | .attribute .. | .uniform .. | .draw _ => none

end Event

/-- The values that were sent for a slot, in the order in which they were sent. -/
def sentFor (name : SlotName) (told : List Event) : List HeldAttribute :=
  told.filterMap (·.sentFor? name)

/-- The last value that was sent for a slot. -/
def lastSent (name : SlotName) (told : List Event) : Option HeldAttribute :=
  (sentFor name told).getLast?

/-- The programs that were bound, in the order in which they were bound. -/
def bindings (told : List Event) : List Program := told.filterMap (·.bound?)

/-- The last value sent is that of the later events, unless they send none. -/
lemma lastSent_append (name : SlotName) (told events : List Event) :
    lastSent name (told ++ events) = (sentFor name events).getLast?.or (lastSent name told) := by
  rw [lastSent, sentFor, List.filterMap_append, List.getLast?_append]
  rfl

namespace PipelineState

/-- The slot of a name. -/
def slot? (s : PipelineState) : SlotName → Option AttributeSlot
  | .ofKey key => s.attributes.find? key
  | .ofUnit unit kind => (s.unitSlots unit).find? kind

end PipelineState

/-! ## Sessions -/

/-- A pipeline state, all that its device was told, and the generators of all identities. -/
structure Session where
  state : PipelineState := .initial
  told : List Event := []
  generators : Nat → Generator

namespace Session

/-- The session in which nothing was pushed and nothing was told, with new generators. -/
def start (contexts : Nat → Context) : Session where
  generators i := { context := contexts i, identity := i }

/-- The steps of a session. A set that is popped need not be the innermost one. A generator may be asked
for programs that have nothing to do with the state. The device is told something when the state is
applied. -/
inductive Step (sets : SharedSets) : Session → Session → Prop where
  | push (s : Session) (identity : Nat) :
      Step sets s { s with state := s.state.push (sets.set identity) }
  | pop (s : Session) (identity : Nat) :
      Step sets s { s with state := s.state.pop (sets.set identity) }
  | setAttributeDefault (s : Session) (a : Attribute) :
      Step sets s { s with state := s.state.setAttributeDefault a }
  | setUnitDefault (s : Session) (unit : Nat) (a : Attribute) :
      Step sets s { s with state := s.state.setUnitDefault unit a }
  | setUniformDefault (s : Session) (name : String) (value : UniformValue) :
      Step sets s { s with state := s.state.setUniformDefault name value }
  | work (s : Session) (i : Nat) {g : Generator} : (s.generators i).Step (fun _ => True) g →
      Step sets s { s with generators := Function.update s.generators i g }
  | apply (s : Session) (i : Nat) {app : PipelineState.Application} :
      s.state.apply (s.generators i) = .ok app →
      Step sets s ⟨app.state, s.told ++ app.events, Function.update s.generators i app.generator⟩

/-- The sessions that steps make of one in which nothing was pushed and nothing was told. -/
inductive Reachable (sets : SharedSets) : Session → Prop where
  | start (contexts : Nat → Context) : Reachable sets (.start contexts)
  | step {s s' : Session} : Reachable sets s → Step sets s s' → Reachable sets s'

end Session

/-! ## What an application tells -/

/-- From the entries of a table, what is made of the entry of one key. -/
lemma filterMap_entries_of_key {κ α β : Type} [DecidableEq κ] (t : Table κ α) (k : κ)
    (f : κ × α → Option β) (make? : α → Option β)
    (hf : ∀ e ∈ t.entries, f e = if e.1 = k then make? e.2 else none) :
    t.entries.filterMap f = ((t.find? k).bind make?).toList := by
  obtain ⟨entries, hnodup⟩ := t
  rw [Table.find?]
  induction entries with
  | nil => rfl
  | cons e entries ih =>
    obtain ⟨hnot, hnodup⟩ := List.nodup_cons.1 hnodup
    have hrest := ih hnodup fun e' he' => hf e' (List.mem_cons_of_mem e he')
    rw [List.filterMap_cons, hf e List.mem_cons_self, List.lookup_cons]
    by_cases hk : e.1 = k
    · subst hk
      have hnone : entries.filterMap f = [] := by
        refine List.filterMap_eq_nil_iff.2 fun e' he' => ?_
        rw [hf e' (List.mem_cons_of_mem e he'), if_neg]
        intro heq
        have hmem : e'.1 ∈ entries.map (·.1) := List.mem_map_of_mem he'
        rw [heq] at hmem
        exact hnot hmem
      rw [hnone]
      simp only [if_true, beq_self_eq_true, Option.bind_some]
      cases make? e.2 <;> rfl
    · have hfalse : (k == e.1) = false := beq_false_of_ne (Ne.symm hk)
      rw [if_neg hk, hfalse]
      exact hrest

/-- From a list with numbers, what is made of the element of one number. -/
lemma flatMap_zipIdx_of_index {α β : Type} (l : List α) (start i : Nat) (make : α × Nat → List β)
    (hmake : ∀ a n, n ≠ start + i → make (a, n) = []) :
    (l.zipIdx start).flatMap make = l[i]?.elim [] fun a => make (a, start + i) := by
  induction l generalizing start i with
  | nil => rfl
  | cons a l ih =>
    rw [List.zipIdx_cons, List.flatMap_cons]
    cases i with
    | zero =>
      have hrest : (l.zipIdx (start + 1)).flatMap make = [] := by
        refine List.flatMap_eq_nil_iff.2 fun e he => ?_
        obtain ⟨b, n⟩ := e
        have hle : start + 1 ≤ n := List.le_snd_of_mem_zipIdx he
        exact hmake b n (by omega)
      rw [hrest, List.append_nil]
      rfl
    | succ i =>
      have hrest := ih (start + 1) i fun b n hn => hmake b n (by omega)
      rw [hmake a start (by omega), List.nil_append, hrest, List.getElem?_cons_succ, Nat.add_assoc,
        Nat.add_comm 1 i]

namespace PipelineState

/-- What is sent for a slot by the events of a table: what is pending in the slot, if the table is
the one of the slot, and nothing otherwise. -/
lemma sentFor_slotEvents {κ : Type} [DecidableEq κ] (slots : Table κ AttributeSlot)
    (unit : Option Nat) (name : SlotName) (key : κ)
    (h : ∀ e ∈ slots.entries, ∀ held ∈ e.2.pending?, Event.slotName held unit = name ↔ e.1 = key) :
    sentFor name (slotEvents unit slots) = ((slots.find? key).bind (·.pending?)).toList := by
  rw [sentFor, slotEvents, List.filterMap_filterMap]
  refine filterMap_entries_of_key slots key _ _ fun e he => ?_
  cases hpending : e.2.pending? with
  | none => simp
  | some held =>
    have hiff := h e he held hpending
    simp only [Option.map_some, Option.bind_some, Event.sentFor?, hiff]

/-- Nothing is sent for a slot by the events of another table. -/
lemma sentFor_slotEvents_eq_nil {κ : Type} {slots : Table κ AttributeSlot} {unit : Option Nat}
    {name : SlotName} (h : ∀ held, Event.slotName held unit ≠ name) :
    sentFor name (slotEvents unit slots) = [] := by
  rw [sentFor, slotEvents, List.filterMap_filterMap]
  refine List.filterMap_eq_nil_iff.2 fun e _ => ?_
  cases e.2.pending? with
  | none => rfl
  | some held => exact if_neg (h held)

/-- The events of the slots send values. -/
lemma attribute_of_mem {s : PipelineState} {e : Event} (h : e ∈ s.attributeEvents) :
    ∃ held unit, e = .attribute held unit := by
  have hslots : ∀ {κ : Type} (unit : Option Nat) (slots : Table κ AttributeSlot),
      e ∈ slotEvents unit slots → ∃ held unit, e = .attribute held unit := by
    intro κ unit slots he
    obtain ⟨slot, -, hslot⟩ := List.mem_filterMap.1 he
    obtain ⟨held, -, rfl⟩ := Option.map_eq_some_iff.1 hslot
    exact ⟨held, unit, rfl⟩
  obtain h | h := List.mem_append.1 h
  · exact hslots none s.attributes h
  · obtain ⟨u, -, hu⟩ := List.mem_flatMap.1 h
    exact hslots (some u.2) u.1 hu

/-- The events of the uniforms are uploads. -/
lemma uniform_of_mem {s : PipelineState} {e : Event} (h : e ∈ s.uniformEvents) :
    ∃ name value, e = .uniform name value := by
  have huploads : ∀ unit attributes, e ∈ attributeUploads unit attributes →
      ∃ name value, e = .uniform name value := by
    intro unit attributes he
    obtain ⟨a, -, ha⟩ := List.mem_flatMap.1 he
    obtain ⟨u, -, rfl⟩ := List.mem_map.1 ha
    exact ⟨u.1, u.2, rfl⟩
  rw [uniformEvents, List.mem_append, List.mem_append] at h
  obtain (h | h) | h := h
  · exact huploads 0 s.activeAttributes h
  · obtain ⟨u, -, hu⟩ := List.mem_flatMap.1 h
    exact huploads u.2 u.1 hu
  · obtain ⟨u, -, rfl⟩ := List.mem_map.1 h
    exact ⟨u.1, u.2.effective, rfl⟩

/-- What is sent for a slot when a state is applied is what the events of its slots send. -/
lemma sentFor_told (s : PipelineState) (p : Program) (name : SlotName) :
    sentFor name (s.attributeEvents ++ s.programEvents p ++ s.uniformEvents) =
      sentFor name s.attributeEvents := by
  have hprogram : (s.programEvents p).filterMap (·.sentFor? name) = [] := by
    rw [programEvents]
    split <;> rfl
  have huniforms : s.uniformEvents.filterMap (·.sentFor? name) = [] := by
    refine List.filterMap_eq_nil_iff.2 fun e he => ?_
    obtain ⟨_, _, rfl⟩ := uniform_of_mem he
    rfl
  rw [sentFor, List.filterMap_append, List.filterMap_append, hprogram, huniforms, List.append_nil,
    List.append_nil, sentFor]

/-- What is bound when a state is applied is its program, unless that is bound. -/
lemma bindings_told (s : PipelineState) (p : Program) :
    bindings (s.attributeEvents ++ s.programEvents p ++ s.uniformEvents) =
      if s.isBound p then [] else [p] := by
  have hattributes : s.attributeEvents.filterMap (·.bound?) = [] := by
    refine List.filterMap_eq_nil_iff.2 fun e he => ?_
    obtain ⟨_, _, rfl⟩ := attribute_of_mem he
    rfl
  have huniforms : s.uniformEvents.filterMap (·.bound?) = [] := by
    refine List.filterMap_eq_nil_iff.2 fun e he => ?_
    obtain ⟨_, _, rfl⟩ := uniform_of_mem he
    rfl
  rw [bindings, List.filterMap_append, List.filterMap_append, hattributes, huniforms,
    List.append_nil, List.nil_append, programEvents]
  split <;> rfl

end PipelineState

/-! ## The invariant of sessions -/

namespace Session

open PipelineState

/-- The state of a session is in step with what its device was told, and its generators are at work
and tell all programs that were bound from those that they make. -/
structure InStep (sets : SharedSets) (s : Session) : Prop where
  attributes : SlotsInStep Attribute.key (fun key => sets.madeFor? (.ofKey key)) s.state.defaults
    (fun key => lastSent (.ofKey key) s.told) s.state.attributes
  units : UnitsInStep (fun unit kind => sets.madeFor? (.ofUnit unit kind)) s.state.defaults
    (fun unit kind => lastSent (.ofUnit unit kind) s.told) s.state.units
  program : s.state.program = (bindings s.told).getLast?
  identity_eq : ∀ i, (s.generators i).identity = i
  serving : ∀ i, (s.generators i).Serving fun _ => True
  recalled : ∀ q ∈ bindings s.told, ∀ i, (s.generators i).Recalls q

variable {sets : SharedSets} {s : Session}

/-- What is pending in a slot in step belongs to the slot. -/
lemma pending_belongs {belongs : Attribute → Prop} {ofSet : Nat → Option Attribute}
    {defaults : Nat} {sent : Option HeldAttribute} {v : AttributeSlot}
    (h : v.InStep belongs ofSet defaults sent) (hset : ∀ i a, ofSet i = some a → belongs a)
    {held : HeldAttribute} (hheld : held ∈ v.pending?) : belongs held.value := by
  rw [h.pending?_eq] at hheld
  split at hheld
  · cases hheld
  · obtain rfl := Option.some.inj hheld
    exact h.effective_belongs hset

/-- What is sent for a slot when a state is applied is what is pending in the slot. -/
lemma InStep.sentFor_attributeEvents (h : s.InStep sets) (name : SlotName) :
    sentFor name s.state.attributeEvents = ((s.state.slot? name).bind (·.pending?)).toList := by
  have hunits : ∀ units : List (Table Kind AttributeSlot),
      sentFor name (units.zipIdx.flatMap fun u => slotEvents (some u.2) u.1) =
        units.zipIdx.flatMap fun u => sentFor name (slotEvents (some u.2) u.1) :=
    fun units => List.filterMap_flatMap
  rw [attributeEvents, sentFor, List.filterMap_append, ← sentFor, ← sentFor, hunits]
  cases name with
  | ofKey key =>
    have hattributes := sentFor_slotEvents s.state.attributes none (.ofKey key) key
      fun e he held hheld => by
        have hkey : held.value.key = e.1 :=
          pending_belongs (h.attributes.slot (Table.find?_eq_some_iff.2 he))
            (fun _ _ ha => (sets.fits_of_madeFor? ha).1) hheld
        rw [Event.slotName, SlotName.ofKey.injEq, hkey]
    have hnil : ∀ u ∈ s.state.units.zipIdx,
        sentFor (.ofKey key) (slotEvents (some u.2) u.1) = [] :=
      fun u _ => sentFor_slotEvents_eq_nil fun held => by simp [Event.slotName]
    rw [hattributes, List.flatMap_eq_nil_iff.2 hnil, List.append_nil]
    rfl
  | ofUnit unit kind =>
    rw [sentFor_slotEvents_eq_nil fun held => by simp [Event.slotName], List.nil_append,
      flatMap_zipIdx_of_index _ 0 unit _ fun slots n hn => sentFor_slotEvents_eq_nil fun held => by
        rw [Event.slotName]
        simp only [ne_eq, SlotName.ofUnit.injEq, not_and]
        exact fun heq => absurd (heq.trans (Nat.zero_add unit).symm) hn]
    rw [slot?, unitSlots]
    cases hslots : s.state.units[unit]? with
    | none => rfl
    | some slots =>
      have hstep := h.units unit
      rw [hslots] at hstep
      refine sentFor_slotEvents slots _ _ kind fun e he held hheld => ?_
      have hkind : held.value.kind = e.1 :=
        pending_belongs (hstep.slot (Table.find?_eq_some_iff.2 he))
          (fun _ _ ha => sets.fits_of_madeFor? ha) hheld
      rw [Event.slotName, SlotName.ofUnit.injEq, hkind, Nat.zero_add]
      exact and_iff_right rfl

/-- Before anything happens, the state is in step. -/
lemma inStep_start (contexts : Nat → Context) : InStep sets (.start contexts) where
  attributes _ := rfl
  units _ _ := rfl
  program := rfl
  identity_eq _ := rfl
  serving i := .start (contexts i) i
  recalled q hq := by cases hq

/-! ### Steps that tell nothing -/

/-- A step that leaves the device and the generators alone: the slots have to stay in step. -/
lemma InStep.silent (h : s.InStep sets) {state : PipelineState}
    (hattributes : SlotsInStep Attribute.key (fun key => sets.madeFor? (.ofKey key)) state.defaults
      (fun key => lastSent (.ofKey key) s.told) state.attributes)
    (hunits : UnitsInStep (fun unit kind => sets.madeFor? (.ofUnit unit kind)) state.defaults
      (fun unit kind => lastSent (.ofUnit unit kind) s.told) state.units)
    (hprogram : state.program = s.state.program) : InStep sets { s with state } where
  attributes := hattributes
  units := hunits
  program := hprogram.trans h.program
  identity_eq := h.identity_eq
  serving := h.serving
  recalled := h.recalled

/-- A pushed set leaves the state in step. -/
lemma InStep.push (h : s.InStep sets) (identity : Nat) :
    InStep sets { s with state := s.state.push (sets.set identity) } := by
  obtain ⟨hattributes, hle⟩ := SlotsInStep.pushAttributes h.attributes
    (fun _ _ _ ha => (sets.fits_of_madeFor? ha).1) Attribute.key_fallback (sets.set identity)
    (sets.content identity).attributes
    fun key _ he => (sets.entry (.ofKey key) he).2
  have hgrown : UnitsInStep (fun unit kind => sets.madeFor? (.ofUnit unit kind)) s.state.defaults
      (fun unit kind => lastSent (.ofUnit unit kind) s.told)
      (growTables s.state.units (sets.content identity).units.length) := fun unit => by
    rw [getD_growTables]
    exact h.units unit
  obtain ⟨hunits, hle'⟩ := UnitsInStep.pushUnits (hgrown.mono hle)
    (fun _ _ _ _ ha => sets.fits_of_madeFor? ha) (sets.set identity)
    (sets.content identity).units
    fun unit kind _ he => (sets.entry (.ofUnit unit kind) he).2
  exact h.silent (hattributes.mono hle') hunits rfl

/-- A popped set leaves the state in step. -/
lemma InStep.pop (h : s.InStep sets) (identity : Nat) :
    InStep sets { s with state := s.state.pop (sets.set identity) } :=
  h.silent (SlotsInStep.popAttributes h.attributes _) (UnitsInStep.popUnits h.units _) rfl

/-- A new default in a unit leaves the state in step. -/
lemma InStep.setUnitDefault (h : s.InStep sets) (unit : Nat) (a : Attribute) :
    InStep sets { s with state := s.state.setUnitDefault unit a } :=
  h.silent (h.attributes.mono (Nat.le_succ s.state.defaults)) (h.units.setDefault unit a) rfl

/-- A new default leaves the state in step. -/
lemma InStep.setAttributeDefault (h : s.InStep sets) (a : Attribute) :
    InStep sets { s with state := s.state.setAttributeDefault a } := by
  rw [PipelineState.setAttributeDefault]
  split
  · exact h.setUnitDefault 0 a
  · exact h.silent (h.attributes.setDefault rfl) (h.units.mono (Nat.le_succ s.state.defaults)) rfl

/-- A generator at work leaves the state in step: it stays the same one, and the others are left
alone. -/
lemma InStep.work (h : s.InStep sets) {i : Nat} {g : Generator}
    (hstep : (s.generators i).Step (fun _ => True) g) :
    InStep sets { s with generators := Function.update s.generators i g } where
  attributes := h.attributes
  units := h.units
  program := h.program
  identity_eq := (Function.forall_update_iff s.generators fun j g => g.identity = j).2
    ⟨hstep.identity_eq.trans (h.identity_eq i), fun j _ => h.identity_eq j⟩
  serving := (Function.forall_update_iff s.generators fun _ g => g.Serving fun _ => True).2
    ⟨(h.serving i).step hstep, fun j _ => h.serving j⟩
  recalled q hq := (Function.forall_update_iff s.generators fun _ g => g.Recalls q).2
    ⟨(h.recalled q hq i).step hstep, fun j _ => h.recalled q hq j⟩

/-! ### Applications -/

variable {i : Nat} {g : Generator} {p q : Program}

/-- A bound program with the maker and the number of the one that is chosen is that one. -/
lemma InStep.eq_of_isSame (h : s.InStep sets) {r : ProgramRequest}
    (hp : (s.generators i).programFor r = .ok (p, g)) (hq : q ∈ bindings s.told)
    (hsame : q.isSame p) : q = p :=
  (h.serving i).numbered.eq_of_isSame (h.recalled q hq i) hp hsame

/-- All generators tell the chosen program from those that they make: its maker has made it, and no
other generator has the identity of its maker. -/
lemma InStep.recalls_chosen (h : s.InStep sets) {r : ProgramRequest}
    (hp : (s.generators i).programFor r = .ok (p, g)) :
    ∀ j, (Function.update s.generators i g j).Recalls p := by
  obtain ⟨hmaker, hrecalls⟩ := (h.serving i).numbered.of_programFor hp
  refine (Function.forall_update_iff s.generators fun _ g => g.Recalls p).2
    ⟨hrecalls, fun j hj hown => ?_⟩
  rw [hmaker, h.identity_eq, h.identity_eq] at hown
  exact absurd hown.symm hj

/-- The chosen program is bound exactly if it is the one that is held. -/
lemma InStep.isBound_iff (h : s.InStep sets) {r : ProgramRequest}
    (hp : (s.generators i).programFor r = .ok (p, g)) :
    s.state.isBound p ↔ s.state.program = some p := by
  rw [isBound]
  cases hprogram : s.state.program with
  | none => simp
  | some q =>
    rw [Option.any_some, Option.some.injEq]
    constructor
    · exact h.eq_of_isSame hp (List.mem_of_getLast? (h.program.symm.trans hprogram))
    · rintro rfl
      simp [Program.isSame]

/-- The application of a state for which there is a program. -/
def applied (s : Session) (p : Program) (g : Generator) : Application where
  state := { s.state.settled with
    program := if s.state.isBound p then s.state.program else some p }
  generator := g
  events := s.state.attributeEvents ++ s.state.programEvents p ++ s.state.uniformEvents

/-- A state is applied if there is a program for it. -/
lemma apply_eq {g g' : Generator} (hp : g.programFor s.state.request = .ok (p, g')) :
    s.state.apply g = .ok (s.applied p g') := by
  rw [PipelineState.apply, hp]
  rfl

/-- Afterwards the state holds its program. -/
lemma InStep.program_applied (h : s.InStep sets) {r : ProgramRequest}
    (hp : (s.generators i).programFor r = .ok (p, g)) : (s.applied p g).state.program = some p := by
  rw [applied]
  split
  next hbound => exact (h.isBound_iff hp).1 hbound
  next => rfl

/-- What is sent for a slot by an application is what was pending in it. -/
lemma InStep.sentFor_applied (h : s.InStep sets) (p : Program) (g : Generator) (name : SlotName) :
    sentFor name (s.applied p g).events = ((s.state.slot? name).bind (·.pending?)).toList :=
  (sentFor_told s.state p name).trans (h.sentFor_attributeEvents name)

/-- The last value sent for a slot is what was pending in it, or else what was sent before. -/
lemma InStep.lastSent_applied (h : s.InStep sets) (p : Program) (g : Generator) (name : SlotName) :
    lastSent name (s.told ++ (s.applied p g).events) =
      ((s.state.slot? name).bind (·.pending?)).or (lastSent name s.told) := by
  rw [lastSent_append, h.sentFor_applied]
  cases (s.state.slot? name).bind (·.pending?) <;> rfl

/-- What is bound after an application is what was bound before it, and its program if that was not
bound. -/
lemma bindings_applied (s : Session) (p : Program) (g : Generator) :
    bindings (s.told ++ (s.applied p g).events) =
      bindings s.told ++ if s.state.isBound p then [] else [p] := by
  rw [bindings, List.filterMap_append, ← bindings, ← bindings]
  exact congrArg (bindings s.told ++ ·) (bindings_told s.state p)

/-- The session after an application. -/
def afterApply (s : Session) (i : Nat) (p : Program) (g : Generator) : Session :=
  ⟨(s.applied p g).state, s.told ++ (s.applied p g).events, Function.update s.generators i g⟩

/-- An application leaves the state in step. -/
lemma InStep.apply (h : s.InStep sets)
    (hp : (s.generators i).programFor s.state.request = .ok (p, g)) :
    InStep sets (s.afterApply i p g) where
  attributes := by
    simp only [afterApply, h.lastSent_applied]
    exact h.attributes.settle
  units := by
    simp only [afterApply, h.lastSent_applied]
    exact h.units.settle
  program := by
    rw [afterApply, h.program_applied hp, bindings_applied, List.getLast?_append]
    split
    next hbound => rw [← h.program, (h.isBound_iff hp).1 hbound]; rfl
    next => rfl
  identity_eq := (h.work (.ask trivial hp)).identity_eq
  serving := (h.work (.ask trivial hp)).serving
  recalled q hq := by
    rw [afterApply, bindings_applied, List.mem_append] at hq
    obtain hq | hq := hq
    · exact (h.work (.ask trivial hp)).recalled q hq
    · split at hq
      · cases hq
      · obtain rfl := List.mem_singleton.1 hq
        exact h.recalls_chosen hp

/-- Each step leaves the state in step. -/
lemma InStep.step {s' : Session} (h : s.InStep sets) (hstep : Step sets s s') : s'.InStep sets := by
  cases hstep with
  | push identity => exact h.push identity
  | pop identity => exact h.pop identity
  | setAttributeDefault a => exact h.setAttributeDefault a
  | setUnitDefault unit a => exact h.setUnitDefault unit a
  | setUniformDefault name value => exact h.silent h.attributes h.units rfl
  | work i hwork => exact h.work hwork
  | apply i happ =>
    obtain ⟨p, hp, hstate, hevents⟩ := of_apply happ
    rw [hstate, hevents]
    exact h.apply hp

/-- The state of every session is in step with what its device was told. -/
lemma Reachable.inStep (h : s.Reachable sets) : s.InStep sets := by
  induction h with
  | start contexts => exact inStep_start contexts
  | step _ hstep ih => exact ih.step hstep

/-! ## What is sent and bound -/

/-- An application settles every slot. -/
lemma slot?_applied (s : Session) (p : Program) (g : Generator) (name : SlotName) :
    (s.applied p g).state.slot? name = (s.state.slot? name).map (·.settled) := by
  cases name with
  | ofKey key => exact Table.find?_mapValues _ s.state.attributes key
  | ofUnit unit kind =>
    change ((s.state.units.map settle)[unit]?.getD .empty).find? kind = _
    rw [List.getElem?_map, slot?, unitSlots]
    cases s.state.units[unit]? with
    | none => rfl
    | some slots => exact Table.find?_mapValues (fun _ v => v.settled) slots kind

/-- The slots of a session are in step, with the attributes of their names. -/
lemma InStep.slot (h : s.InStep sets) {name : SlotName} {v : AttributeSlot}
    (hv : s.state.slot? name = some v) :
    ∃ belongs ofSet, v.InStep belongs ofSet s.state.defaults (lastSent name s.told) := by
  cases name with
  | ofKey key => exact ⟨_, _, h.attributes.slot hv⟩
  | ofUnit unit kind => exact ⟨_, _, (h.units unit).slot hv⟩

/-- For a slot that does not exist nothing was sent. -/
lemma InStep.lastSent_eq_none (h : s.InStep sets) {name : SlotName}
    (hnone : s.state.slot? name = none) : lastSent name s.told = none := by
  cases name with
  | ofKey key => exact h.attributes.sent_eq_none hnone
  | ofUnit unit kind => exact (h.units unit).sent_eq_none hnone

/-- **An application tells the device what changed.** Whenever one of the generators has a program for
a state, the state can be applied with it. Afterwards the last value sent for every slot is its
effective value, which the application leaves alone; during the application a slot is sent that value
once if it was not the last one sent, and nothing otherwise, where values of one slot with the same
origin are the same value. For a slot that does not exist nothing was ever sent. The program is bound
once if it was not the last one bound, and not at all otherwise, where programs with the same maker and
number are the same program. -/
theorem Reachable.apply_tells_changes (h : s.Reachable sets)
    (hp : (s.generators i).programFor s.state.request = .ok (p, g)) :
    ∃ app, s.state.apply (s.generators i) = .ok app ∧
      (∀ name v, s.state.slot? name = some v →
        (app.state.slot? name).map (·.effective) = some v.effective ∧
        lastSent name (s.told ++ app.events) = some v.effective ∧
        (lastSent name s.told = some v.effective → sentFor name app.events = []) ∧
        (lastSent name s.told ≠ some v.effective → sentFor name app.events = [v.effective]) ∧
        ∀ held ∈ lastSent name s.told, held.origin = v.effective.origin → held = v.effective) ∧
      (∀ name, s.state.slot? name = none →
        app.state.slot? name = none ∧ sentFor name (s.told ++ app.events) = []) ∧
      app.state.program = some p ∧
      ((bindings s.told).getLast? = some p → bindings app.events = []) ∧
      ((bindings s.told).getLast? ≠ some p → bindings app.events = [p]) ∧
      ∀ q ∈ bindings s.told, q.isSame p → q = p := by
  have hstep : s.InStep sets := h.inStep
  have hbindings : bindings (s.applied p g).events = if s.state.isBound p then [] else [p] :=
    bindings_told s.state p
  refine ⟨s.applied p g, apply_eq hp, fun name v hv => ?_, fun name hnone => ?_,
    hstep.program_applied hp, fun hlast => ?_, fun hlast => ?_, fun q => hstep.eq_of_isSame hp⟩
  · obtain ⟨belongs, ofSet, hslot⟩ := hstep.slot hv
    have hsent : sentFor name (s.applied p g).events = v.pending?.toList := by
      rw [hstep.sentFor_applied, hv]
      rfl
    refine ⟨?_, ?_, fun hlast => ?_, fun hlast => ?_, fun held => hslot.eq_effective⟩
    · rw [slot?_applied, hv]
      rfl
    · rw [hstep.lastSent_applied, hv]
      exact hslot.sent_eq_effective
    · rw [hsent, hslot.pending?_eq, hlast]
      simp
    · rw [hsent, hslot.pending?_eq, if_neg]
      · rfl
      · intro hany
        obtain ⟨held, hheld, horigin⟩ := (Option.any_eq_true _ _).1 hany
        exact hlast (hheld.trans (congrArg some (hslot.eq_effective hheld (eq_of_beq horigin))))
  · refine ⟨by rw [slot?_applied, hnone]; rfl, ?_⟩
    have hlast := hstep.lastSent_applied p g name
    rw [hnone, hstep.lastSent_eq_none hnone] at hlast
    exact List.getLast?_eq_none_iff.1 hlast
  · rw [hbindings, if_pos ((hstep.isBound_iff hp).2 (hstep.program.trans hlast))]
  · rw [hbindings, if_neg]
    exact fun hbound => hlast (hstep.program.symm.trans ((hstep.isBound_iff hp).1 hbound))

/-! ### A copied set and two generators -/

/-- A set with a depth test, a copy of it with a blend function as well, and empty sets. -/
def copiedSets : SharedSets where
  content
    | 0 => ({} : StateSet).setAttribute (.depth { writeMask := false }) .on
    | 1 => (SharedSet.mk 0 (({} : StateSet).setAttribute (.depth { writeMask := false }) .on)).copy
        |>.setAttribute (.blendFunc {}) .on
    | _ => {}
  made
    | 0 => .setAttribute _ _ (.empty none)
    | 1 => .setAttribute _ _ (.copy Nat.zero_lt_one)
    | _ + 2 => .empty none

/-- The session in which the set with a depth test was pushed. -/
def pushed : Session :=
  { Session.start fun _ => {} with state := PipelineState.initial.push (copiedSets.set 0) }

/-- The session in which the set gave way to its copy, after it was applied with the first
generator. -/
def replaced (p : Program) (g : Generator) : Session :=
  let shown := pushed.afterApply 0 p g
  { shown with state := (shown.state.pop (copiedSets.set 0)).push (copiedSets.set 1) }

/-- Steps lead to the session in which the set gave way to its copy. -/
lemma reachable_replaced (hp : (pushed.generators 0).programFor pushed.state.request = .ok (p, g)) :
    (replaced p g).Reachable copiedSets := by
  have hpushed : pushed.Reachable copiedSets :=
    .step (.start fun _ => {}) (@Step.push copiedSets (.start fun _ => {}) 0)
  have hshown : (pushed.afterApply 0 p g).Reachable copiedSets :=
    hpushed.step (.apply pushed 0 (apply_eq hp))
  exact (hshown.step (@Step.pop copiedSets _ 0)).step (@Step.push copiedSets _ 1)

/-- When the copy is applied with another generator, the depth test is not sent again, the blend
function is sent, and a program is bound that has the number of the one before. -/
theorem apply_tells_changes_replaced : ∃ p g q g',
    (pushed.generators 0).programFor pushed.state.request = .ok (p, g) ∧
    (replaced p g).Reachable copiedSets ∧
    ((replaced p g).generators 1).programFor (replaced p g).state.request = .ok (q, g') ∧
    lastSent (.ofKey ⟨.depth, 0⟩) (replaced p g).told =
      some ⟨.set 0, .depth { writeMask := false }⟩ ∧
    (bindings (replaced p g).told).getLast? = some p ∧ q.serial = p.serial ∧
    ∃ app, (replaced p g).state.apply ((replaced p g).generators 1) = .ok app ∧
      sentFor (.ofKey ⟨.depth, 0⟩) app.events = [] ∧
      sentFor (.ofKey ⟨.blendFunc, 0⟩) app.events = [⟨.set 1, .blendFunc {}⟩] ∧
      bindings app.events = [q] := by
  obtain ⟨p, g, hp⟩ := (pushed.generators 0).exists_programFor (r := pushed.state.request) rfl
  obtain ⟨q, g', hq⟩ := ((replaced p g).generators 1).exists_programFor
    (r := (replaced p g).state.request) rfl
  have hpushed : pushed.InStep copiedSets :=
    (inStep_start fun _ => {}).step (@Step.push copiedSets (.start fun _ => {}) 0)
  have hreachable : (replaced p g).Reachable copiedSets := reachable_replaced hp
  have hdepth : lastSent (.ofKey ⟨.depth, 0⟩) (replaced p g).told =
      some ⟨.set 0, .depth { writeMask := false }⟩ :=
    hpushed.lastSent_applied p g (.ofKey ⟨.depth, 0⟩)
  have hblend : lastSent (.ofKey ⟨.blendFunc, 0⟩) (replaced p g).told = none :=
    hpushed.lastSent_applied p g (.ofKey ⟨.blendFunc, 0⟩)
  have hbound : (bindings (replaced p g).told).getLast? = some p :=
    hreachable.inStep.program.symm.trans (hpushed.program_applied hp)
  obtain ⟨hserial, hmaker⟩ := Generator.serial_of_programFor (g := pushed.generators 0) rfl hp
  obtain ⟨hserial', hmaker'⟩ :=
    Generator.serial_of_programFor (g := (replaced p g).generators 1) rfl hq
  obtain ⟨app, happ, hslots, -, -, -, hbind, -⟩ := Reachable.apply_tells_changes hreachable hq
  obtain ⟨-, -, hkept, -, -⟩ := hslots (.ofKey ⟨.depth, 0⟩) _ rfl
  obtain ⟨-, -, -, hchanged, -⟩ := hslots (.ofKey ⟨.blendFunc, 0⟩) _ rfl
  refine ⟨p, g, q, g', hp, hreachable, hq, hdepth, hbound, hserial'.trans hserial.symm, app, happ,
    hkept hdepth, hchanged ?_, hbind ?_⟩
  · rw [hblend]
    exact Option.some_ne_none _ |>.symm
  · rw [hbound]
    intro heq
    rw [← Option.some.inj heq, hmaker] at hmaker'
    exact absurd hmaker' Nat.zero_ne_one

end Session

end SceneShading
