import Mathlib.Tactic
import SceneShading.Proofs.Pipeline.Active

/-!
# Slots in step with a device

A slot remembers the value that the device was last given, and whether anything happened to it since
then. That is enough to tell what the device has to be given: a slot is *in step* with a device if
it remembers the value that was last sent for it, and a slot to which nothing happened has sent its
effective value (`AttributeSlot.InStep`). Pushing, popping and new defaults keep a slot in step
because they mark it as changed; settling a slot keeps it in step because it sends what was pending
(`AttributeSlot.InStep.settled`).

Values are compared by their origins. Two values of one slot with the same origin are the same
value, since one value of a slot was made for a set and every default has a number of its own
(`AttributeSlot.Remembers.eq_effective`).
-/

namespace SceneShading

/-! ## One slot -/

namespace AttributeSlot

/-- What a slot remembers, given the attributes that belong to it, the value that was made for the set
of an identity, the number of defaults given out so far, and the value that was last sent. -/
structure Remembers (belongs : Attribute → Prop) (ofSet : Nat → Option Attribute) (defaults : Nat)
    (sent : Option HeldAttribute) (v : AttributeSlot) : Prop where
  /-- The entries are values of sets. -/
  entries : ∀ e ∈ v.stack.entries, ∃ i, e.1.origin = .set i ∧ ofSet i = some e.1.value
  /-- The default has a number that was given out. -/
  fallback_origin : ∃ n < defaults, v.fallback.origin = .fallback n
  fallback_belongs : belongs v.fallback.value
  applied_eq : v.applied = sent
  /-- What was sent is the value of a set, or a default: the present one or an older one. -/
  sent_origin : ∀ held ∈ sent, (∃ i, held.origin = .set i ∧ ofSet i = some held.value) ∨
    ∃ n < defaults, held.origin = .fallback n ∧
      (v.fallback.origin = .fallback n → held = v.fallback)

/-- A slot in step with the device: it remembers what was sent, and unless something happened to it,
that is its effective value. -/
structure InStep (belongs : Attribute → Prop) (ofSet : Nat → Option Attribute) (defaults : Nat)
    (sent : Option HeldAttribute) (v : AttributeSlot) : Prop
    extends Remembers belongs ofSet defaults sent v where
  isApplied_of_unchanged : v.stack.isChanged = false → v.isApplied v.effective

/-- The effective value is that of the innermost entry, or the default. -/
lemma effective_cases (v : AttributeSlot) :
    (∃ e ∈ v.stack.entries, v.effective = e.1) ∨ v.effective = v.fallback := by
  rw [effective, active?, ModeStack.top?]
  cases hentries : v.stack.entries with
  | nil => exact .inr rfl
  | cons e entries =>
    by_cases hmode : e.2.isEmpty
    · refine .inr ?_
      simp [hmode]
    · refine .inl ⟨e, List.mem_cons_self, ?_⟩
      simp [hmode]

variable {belongs : Attribute → Prop} {ofSet : Nat → Option Attribute} {defaults : Nat}
  {sent : Option HeldAttribute} {v : AttributeSlot}

/-- The effective value belongs to the slot. -/
lemma Remembers.effective_belongs (h : v.Remembers belongs ofSet defaults sent)
    (hset : ∀ i a, ofSet i = some a → belongs a) : belongs v.effective.value := by
  obtain ⟨e, he, heq⟩ | heq := v.effective_cases
  · obtain ⟨i, -, hi⟩ := h.entries e he
    exact heq ▸ hset i e.1.value hi
  · exact heq ▸ h.fallback_belongs

/-- What was sent and has the origin of the effective value is the effective value. -/
lemma Remembers.eq_effective (h : v.Remembers belongs ofSet defaults sent) {held : HeldAttribute}
    (hheld : held ∈ sent) (horigin : held.origin = v.effective.origin) : held = v.effective := by
  obtain ⟨n, -, hn⟩ := h.fallback_origin
  obtain ⟨e, he, heq⟩ | heq := v.effective_cases
  · obtain ⟨i, hi, hvalue⟩ := h.entries e he
    rw [heq, hi] at horigin
    rw [heq]
    obtain ⟨j, hj, hvalue'⟩ | ⟨m, -, hm, -⟩ := h.sent_origin held hheld
    · obtain rfl : j = i := Origin.set.inj (hj.symm.trans horigin)
      have hvalues : held.value = e.1.value := Option.some.inj (hvalue'.symm.trans hvalue)
      cases held
      cases e with | mk e _ => cases e; simp_all
    · rw [hm] at horigin
      cases horigin
  · rw [heq, hn] at horigin
    rw [heq]
    obtain ⟨j, hj, -⟩ | ⟨m, -, hm, hfallback⟩ := h.sent_origin held hheld
    · rw [hj] at horigin
      cases horigin
    · obtain rfl : m = n := Origin.fallback.inj (hm.symm.trans horigin)
      exact hfallback hn

/-- What a slot remembers does not depend on how many defaults are given out to other slots. -/
lemma Remembers.mono (h : v.Remembers belongs ofSet defaults sent) {defaults' : Nat}
    (hle : defaults ≤ defaults') : v.Remembers belongs ofSet defaults' sent where
  entries := h.entries
  fallback_origin := by
    obtain ⟨n, hn, horigin⟩ := h.fallback_origin
    exact ⟨n, hn.trans_le hle, horigin⟩
  fallback_belongs := h.fallback_belongs
  applied_eq := h.applied_eq
  sent_origin held hheld := by
    obtain hset | ⟨n, hn, hfallback⟩ := h.sent_origin held hheld
    · exact .inl hset
    · exact .inr ⟨n, hn.trans_le hle, hfallback⟩

/-- The slots in step stay so while defaults are given out to other slots. -/
lemma InStep.mono (h : v.InStep belongs ofSet defaults sent) {defaults' : Nat}
    (hle : defaults ≤ defaults') : v.InStep belongs ofSet defaults' sent :=
  ⟨h.toRemembers.mono hle, h.isApplied_of_unchanged⟩

/-- The values on a stack after a push are those from before and the pushed one. -/
lemma mem_entries_push {α : Type} {s : ModeStack α} {pushed e : α × Mode}
    (he : e ∈ (s.push pushed).entries) : e = pushed ∨ e ∈ s.entries := by
  obtain rfl | he := List.mem_cons.1 he
  · rw [ModeStack.prevailing]
    cases hentries : s.entries with
    | nil => exact .inl rfl
    | cons top rest =>
      rw [List.head?_cons]
      dsimp only
      split
      · exact .inr List.mem_cons_self
      · exact .inl rfl
  · exact .inr he

/-- Pushing the value of a set marks the slot as changed. -/
lemma Remembers.push (h : v.Remembers belongs ofSet defaults sent) {i : Nat} {a : Attribute}
    (ha : ofSet i = some a) (mode : Mode) :
    ({ v with stack := v.stack.push (⟨.set i, a⟩, mode) } : AttributeSlot).InStep belongs ofSet
      defaults sent where
  entries e he := by
    obtain rfl | he := mem_entries_push he
    · exact ⟨i, rfl, ha⟩
    · exact h.entries e he
  fallback_origin := h.fallback_origin
  fallback_belongs := h.fallback_belongs
  applied_eq := h.applied_eq
  sent_origin := h.sent_origin
  isApplied_of_unchanged hunchanged := by cases hunchanged

/-- Popping marks the slot as changed. -/
lemma Remembers.pop (h : v.Remembers belongs ofSet defaults sent) :
    ({ v with stack := v.stack.pop } : AttributeSlot).InStep belongs ofSet defaults sent where
  entries e he := h.entries e (List.mem_of_mem_tail he)
  fallback_origin := h.fallback_origin
  fallback_belongs := h.fallback_belongs
  applied_eq := h.applied_eq
  sent_origin := h.sent_origin
  isApplied_of_unchanged hunchanged := by cases hunchanged

/-- A slot marked as changed is in step. -/
lemma Remembers.mark (h : v.Remembers belongs ofSet defaults sent) :
    ({ v with stack := v.stack.mark true } : AttributeSlot).InStep belongs ofSet defaults sent where
  entries := h.entries
  fallback_origin := h.fallback_origin
  fallback_belongs := h.fallback_belongs
  applied_eq := h.applied_eq
  sent_origin := h.sent_origin
  isApplied_of_unchanged hunchanged := by cases hunchanged

/-- A new default has a number that no older one has, and marks the slot as changed. -/
lemma Remembers.newDefault (h : v.Remembers belongs ofSet defaults sent) {a : Attribute}
    (ha : belongs a) :
    ({ v with fallback := ⟨.fallback defaults, a⟩, stack := v.stack.mark true } :
      AttributeSlot).InStep belongs ofSet (defaults + 1) sent where
  entries := h.entries
  fallback_origin := ⟨defaults, Nat.lt_succ_self defaults, rfl⟩
  fallback_belongs := ha
  applied_eq := h.applied_eq
  sent_origin held hheld := by
    obtain hset | ⟨n, hn, horigin, -⟩ := h.sent_origin held hheld
    · exact .inl hset
    · refine .inr ⟨n, Nat.lt_succ_of_lt hn, horigin, fun hnew => ?_⟩
      exact absurd (Origin.fallback.inj hnew) hn.ne'
  isApplied_of_unchanged hunchanged := by cases hunchanged

/-- A slot that nothing was sent for, with a default of the next number. -/
lemma remembers_fresh {a : Attribute} (ha : belongs a) :
    ({ fallback := ⟨.fallback defaults, a⟩ } : AttributeSlot).Remembers belongs ofSet (defaults + 1)
      none where
  entries e he := by cases he
  fallback_origin := ⟨defaults, Nat.lt_succ_self defaults, rfl⟩
  fallback_belongs := ha
  applied_eq := rfl
  sent_origin held hheld := by cases hheld

/-- A slot in step has its effective value pending exactly when that was not the last one sent. -/
lemma InStep.pending?_eq (h : v.InStep belongs ofSet defaults sent) :
    v.pending? =
      if sent.any (·.origin == v.effective.origin) then none else some v.effective := by
  have happlied : v.isApplied v.effective = sent.any (·.origin == v.effective.origin) := by
    rw [isApplied, h.applied_eq]
  rw [pending?, happlied]
  cases hchanged : v.stack.isChanged with
  | false =>
    have hany := h.isApplied_of_unchanged hchanged
    rw [happlied] at hany
    simp [hany]
  | true => cases sent.any (·.origin == v.effective.origin) <;> rfl

/-- Once what was pending is sent, the last value sent is the effective one. -/
lemma InStep.sent_eq_effective (h : v.InStep belongs ofSet defaults sent) :
    v.pending?.or sent = some v.effective := by
  rw [h.pending?_eq]
  split
  next hany =>
    cases hsent : sent with
    | none => simp [hsent] at hany
    | some held =>
      rw [hsent, Option.any_some] at hany
      rw [Option.none_or, h.eq_effective hsent (eq_of_beq hany)]
  next => rfl

/-- Sending what was pending keeps a slot in step. -/
lemma InStep.settled (h : v.InStep belongs ofSet defaults sent) :
    v.settled.InStep belongs ofSet defaults (v.pending?.or sent) where
  entries := h.entries
  fallback_origin := h.fallback_origin
  fallback_belongs := h.fallback_belongs
  applied_eq := congrArg v.pending?.or h.applied_eq
  sent_origin held hheld := by
    rw [h.sent_eq_effective, Option.mem_some] at hheld
    subst hheld
    obtain ⟨e, he, heq⟩ | heq := v.effective_cases
    · exact .inl (heq ▸ h.entries e he)
    · obtain ⟨n, hn, horigin⟩ := h.fallback_origin
      exact .inr ⟨n, hn, heq ▸ horigin, fun _ => heq⟩
  isApplied_of_unchanged _ := by
    rw [isApplied, AttributeSlot.settled, h.applied_eq, h.sent_eq_effective]
    exact beq_self_eq_true v.effective.origin

end AttributeSlot

/-! ## The slots of a table -/

namespace PipelineState

section Slots

variable {κ : Type} [DecidableEq κ] (name : Attribute → κ) (ofSet : κ → Nat → Option Attribute)

/-- Every slot of a table is in step with the device, and for a key without a slot nothing was sent.
Attributes go to the slot of their name. -/
def SlotsInStep (defaults : Nat) (sent : κ → Option HeldAttribute) (slots : Table κ AttributeSlot) :
    Prop :=
  ∀ key, (slots.find? key).elim (sent key = none)
    (AttributeSlot.InStep (name · = key) (ofSet key) defaults (sent key))

variable {name ofSet} {defaults : Nat} {sent : κ → Option HeldAttribute}
  {slots : Table κ AttributeSlot}

/-- A slot of the table is in step. -/
lemma SlotsInStep.slot (h : SlotsInStep name ofSet defaults sent slots) {key : κ}
    {v : AttributeSlot} (hv : slots.find? key = some v) :
    v.InStep (name · = key) (ofSet key) defaults (sent key) := by
  have hkey := h key
  rwa [hv] at hkey

/-- For a key without a slot nothing was sent. -/
lemma SlotsInStep.sent_eq_none (h : SlotsInStep name ofSet defaults sent slots) {key : κ}
    (hkey : slots.find? key = none) : sent key = none := by
  have hnone := h key
  rwa [hkey] at hnone

/-- The slots stay in step while defaults are given out to other slots. -/
lemma SlotsInStep.mono (h : SlotsInStep name ofSet defaults sent slots) {defaults' : Nat}
    (hle : defaults ≤ defaults') : SlotsInStep name ofSet defaults' sent slots := by
  intro key
  cases hv : slots.find? key with
  | none => exact h.sent_eq_none hv
  | some v => exact (h.slot hv).mono hle

/-- A slot that is changed or made: it has to be in step afterwards. -/
lemma SlotsInStep.upsert (h : SlotsInStep name ofSet defaults sent slots) {defaults' : Nat}
    (hle : defaults ≤ defaults') (k : κ) {initial : AttributeSlot}
    {f : AttributeSlot → AttributeSlot}
    (hinitial : (f initial).InStep (name · = k) (ofSet k) defaults' none)
    (hf : ∀ v : AttributeSlot, v.InStep (name · = k) (ofSet k) defaults (sent k) →
      (f v).InStep (name · = k) (ofSet k) defaults' (sent k)) :
    SlotsInStep name ofSet defaults' sent (slots.upsert k initial f) := by
  intro key
  rw [Table.find?_upsert]
  by_cases hkey : key = k
  · subst hkey
    rw [if_pos rfl]
    cases hv : slots.find? key with
    | none =>
      rw [h.sent_eq_none hv]
      exact hinitial
    | some v => exact hf v (h.slot hv)
  · rw [if_neg hkey]
    exact h.mono hle key

/-- A pushed set leaves the slots in step, whatever it has for them. -/
lemma SlotsInStep.pushAttributes (h : SlotsInStep name ofSet defaults sent slots)
    (hbelongs : ∀ key i a, ofSet key i = some a → name a = key)
    (hfallback : ∀ a : Attribute, name a.fallback = name a) (set : SharedSet)
    (table : Table κ SetEntry)
    (hset : ∀ key e, table.find? key = some e → ofSet key (set.sourceOf e) = some e.value) :
    SlotsInStep name ofSet (PipelineState.pushAttributes set table slots defaults).2 sent
        (PipelineState.pushAttributes set table slots defaults).1 ∧
      defaults ≤ (PipelineState.pushAttributes set table slots defaults).2 := by
  have hentries : ∀ e ∈ table.entries, ofSet e.1 (set.sourceOf e.2) = some e.2.value := fun e he =>
    hset e.1 e.2 (Table.find?_eq_some_iff.2 he)
  rw [PipelineState.pushAttributes]
  -- the fold takes the entries of the set one after another and numbers a default for each
  generalize table.entries = entries at hentries ⊢
  induction entries generalizing slots defaults with
  | nil => exact ⟨h, le_rfl⟩
  | cons pair entries ih =>
    obtain ⟨key, e⟩ := pair
    have he : ofSet key (set.sourceOf e) = some e.value := hentries (key, e) List.mem_cons_self
    have hnew : name e.value.fallback = key := (hfallback e.value).trans (hbelongs key _ _ he)
    have hfresh : AttributeSlot.InStep (name · = key) (ofSet key) (defaults + 1) none
        { newSlot defaults e.value with
          stack := (newSlot defaults e.value).stack.push (set.hold e) } :=
      (AttributeSlot.remembers_fresh hnew).push he e.mode
    have hstep := h.upsert (Nat.le_succ defaults) key
      (f := fun s => { s with stack := s.stack.push (set.hold e) }) hfresh
      fun v hv => (hv.toRemembers.push he e.mode).mono (Nat.le_succ defaults)
    obtain ⟨hrest, hle⟩ := ih hstep fun e he => hentries e (List.mem_cons_of_mem _ he)
    exact ⟨hrest, (Nat.le_succ defaults).trans hle⟩

/-- A popped set leaves the slots in step, whichever set it is. -/
lemma SlotsInStep.popAttributes (h : SlotsInStep name ofSet defaults sent slots) {β : Type}
    (set : Table κ β) :
    SlotsInStep name ofSet defaults sent (PipelineState.popAttributes set slots) := by
  rw [PipelineState.popAttributes]
  induction set.keys generalizing slots with
  | nil => exact h
  | cons k keys ih =>
    refine ih fun key => ?_
    rw [Table.find?_modify]
    by_cases hkey : key = k
    · rw [if_pos hkey]
      cases hv : slots.find? key with
      | none => exact h.sent_eq_none hv
      | some v => exact (h.slot hv).toRemembers.pop
    · rw [if_neg hkey]
      exact h key

/-- A new default leaves the slots in step. -/
lemma SlotsInStep.setDefault (h : SlotsInStep name ofSet defaults sent slots) {a : Attribute}
    {key : κ} (hkey : name a = key) :
    SlotsInStep name ofSet (defaults + 1) sent
      (PipelineState.setDefault slots key ⟨.fallback defaults, a⟩) :=
  h.upsert (Nat.le_succ defaults) key
    (AttributeSlot.remembers_fresh hkey).mark
    fun _ hv => hv.toRemembers.newDefault hkey

/-- Sending what is pending in every slot leaves the slots in step. -/
lemma SlotsInStep.settle (h : SlotsInStep name ofSet defaults sent slots) :
    SlotsInStep name ofSet defaults
      (fun key => ((slots.find? key).bind (·.pending?)).or (sent key))
      (PipelineState.settle slots) := by
  intro key
  rw [PipelineState.settle, Table.find?_mapValues]
  cases hv : slots.find? key with
  | none =>
    simp only [hv]
    exact h.sent_eq_none hv
  | some v =>
    simp only [hv]
    exact (h.slot hv).settled

end Slots

/-! ## Texture units -/

/-- Every slot of every texture unit is in step with the device. -/
def UnitsInStep (ofSet : Nat → Kind → Nat → Option Attribute) (defaults : Nat)
    (sent : Nat → Kind → Option HeldAttribute) (units : List (Table Kind AttributeSlot)) : Prop :=
  ∀ unit, SlotsInStep Attribute.kind (ofSet unit) defaults (sent unit) (units[unit]?.getD .empty)

variable {ofSet : Nat → Kind → Nat → Option Attribute} {defaults : Nat}
  {sent : Nat → Kind → Option HeldAttribute} {units : List (Table Kind AttributeSlot)}

/-- The units stay in step while defaults are given out to other slots. -/
lemma UnitsInStep.mono (h : UnitsInStep ofSet defaults sent units) {defaults' : Nat}
    (hle : defaults ≤ defaults') : UnitsInStep ofSet defaults' sent units :=
  fun unit => (h unit).mono hle

/-- The units behind the first one are in step. -/
lemma UnitsInStep.tail {slots : Table Kind AttributeSlot}
    (h : UnitsInStep ofSet defaults sent (slots :: units)) :
    UnitsInStep (fun unit => ofSet (unit + 1)) defaults (fun unit => sent (unit + 1)) units :=
  fun unit => h (unit + 1)

/-- The units that are added have no slots. -/
lemma getD_growTables (length unit : Nat) :
    (growTables units length)[unit]?.getD .empty = units[unit]?.getD .empty := by
  rw [growTables, List.getElem?_append, List.getElem?_replicate]
  split
  · rfl
  next hlt =>
    rw [List.getElem?_eq_none (Nat.le_of_not_lt hlt)]
    split <;> rfl

/-- A pushed set leaves the units in step, whatever it has for them. -/
lemma UnitsInStep.pushUnits (h : UnitsInStep ofSet defaults sent units)
    (hbelongs : ∀ unit kind i a, ofSet unit kind i = some a → a.kind = kind) (set : SharedSet)
    (tables : List (Table Kind SetEntry))
    (hset : ∀ unit kind e, tables[unit]?.bind (·.find? kind) = some e →
      ofSet unit kind (set.sourceOf e) = some e.value) :
    UnitsInStep ofSet (PipelineState.pushUnits set tables units defaults).2 sent
        (PipelineState.pushUnits set tables units defaults).1 ∧
      defaults ≤ (PipelineState.pushUnits set tables units defaults).2 := by
  induction tables generalizing units defaults ofSet sent with
  | nil => exact ⟨h, le_rfl⟩
  | cons table tables ih =>
    cases units with
    | nil => exact ⟨h, le_rfl⟩
    | cons slots units =>
      obtain ⟨hfirst, hle⟩ := SlotsInStep.pushAttributes (h 0) (hbelongs 0) Attribute.kind_fallback
        set table fun kind e he => hset 0 kind e he
      have htail := h.tail.mono hle
      obtain ⟨hrest, hle'⟩ := ih htail (fun unit => hbelongs (unit + 1)) fun unit =>
        hset (unit + 1)
      refine ⟨fun unit => ?_, hle.trans hle'⟩
      cases unit with
      | zero => exact hfirst.mono hle'
      | succ unit => exact hrest unit

/-- A popped set leaves the units in step. -/
lemma UnitsInStep.popUnits (h : UnitsInStep ofSet defaults sent units) {β : Type}
    (sets : List (Table Kind β)) :
    UnitsInStep ofSet defaults sent (PipelineState.popUnits sets units) := by
  induction sets generalizing units ofSet sent with
  | nil => exact h
  | cons set sets ih =>
    cases units with
    | nil => exact h
    | cons slots units =>
      intro unit
      cases unit with
      | zero => exact SlotsInStep.popAttributes (h 0) set
      | succ unit => exact ih h.tail unit

/-- A new default in one unit leaves the units in step. -/
lemma UnitsInStep.setDefault (h : UnitsInStep ofSet defaults sent units) (n : Nat) (a : Attribute) :
    UnitsInStep ofSet (defaults + 1) sent ((growTables units (n + 1)).modify n
      (PipelineState.setDefault · a.kind ⟨.fallback defaults, a⟩)) := by
  intro unit
  have hgrown : SlotsInStep Attribute.kind (ofSet unit) defaults (sent unit)
      ((growTables units (n + 1))[unit]?.getD .empty) := by
    rw [getD_growTables]
    exact h unit
  rw [List.getElem?_modify]
  by_cases hn : n = unit
  · subst hn
    have hlt : n < (growTables units (n + 1)).length := by
      rw [length_growTables]
      omega
    rw [List.getElem?_eq_getElem hlt] at hgrown ⊢
    simp only [if_true]
    exact SlotsInStep.setDefault hgrown (a := a) rfl
  · simp only [hn, if_false, Option.map_eq_map, Option.map_id']
    exact hgrown.mono (Nat.le_succ defaults)

/-- Sending what is pending in every unit leaves the units in step. -/
lemma UnitsInStep.settle (h : UnitsInStep ofSet defaults sent units) :
    UnitsInStep ofSet defaults
      (fun unit kind => (((units[unit]?.getD .empty).find? kind).bind (·.pending?)).or
        (sent unit kind))
      (units.map PipelineState.settle) := by
  intro unit
  have hslots : (units.map PipelineState.settle)[unit]?.getD .empty =
      PipelineState.settle (units[unit]?.getD .empty) := by
    rw [List.getElem?_map]
    cases units[unit]? <;> rfl
  rw [hslots]
  exact (h unit).settle

end PipelineState

end SceneShading
