import Mathlib.Tactic
import SceneShading.State.Set

/-!
# Shared sets and their copies

State sets are made one after another: a set begins empty or as a copy of a set that is shared already,
attributes are set and removed, and then it is shared and changes no more (`StateSet.Made`). A copy has
the very attributes of its original, which may have them from an original of its own. Each attribute
remembers the shared set that it was made for, and that set and the slot are enough to know it
(`SharedSets.entry`).

The sets of a run are numbered in the order in which they were shared (`SharedSets`), so that a copy has
a greater number than its original. The proof is by strong induction on the number; within one set it
goes by the edits that made it (`StateSet.Made.forall_entry`), of which each is described once by the
entries that it leaves.
-/

namespace SceneShading

/-! ## Slots -/

/-- The slots of attributes: those of keys, and those of kinds in texture units. -/
inductive SlotName where
  | ofKey (key : AttributeKey)
  | ofUnit (unit : Nat) (kind : Kind)
deriving DecidableEq

/-- The attribute belongs in the slot. Textures and shadow maps belong in texture units. -/
def SlotName.Fits (a : Attribute) : SlotName → Prop
  | ofKey key => a.key = key ∧ a.kind.isTextureKind = false
  | ofUnit _ kind => a.kind = kind

namespace StateSet

/-- The entry of a slot. -/
def entryIn? (s : StateSet) : SlotName → Option SetEntry
  | .ofKey key => s.entryAt? key
  | .ofUnit unit kind => s.unitEntryAt? unit kind

/-! ## What edits do to entries -/

variable {s : StateSet} {name : SlotName} {e : SetEntry}

/-- An attribute that is set in a unit goes to a slot where it belongs, and the other slots keep their
entries. -/
lemma entryIn?_of_setUnitAttribute {unit : Nat} {a : Attribute} {mode : Mode}
    (h : (s.setUnitAttribute unit a mode).entryIn? name = some e) :
    (name.Fits a ∧ e = { value := a, mode }) ∨ s.entryIn? name = some e := by
  cases name with
  | ofKey key => exact .inr h
  | ofUnit n kind =>
    rw [entryIn?, unitEntryAt?, setUnitAttribute, List.getElem?_modify] at h
    obtain ⟨slots, hslots, hfound⟩ := Option.bind_eq_some_iff.1 h
    obtain ⟨grown, hgrown, rfl⟩ := Option.map_eq_some_iff.1 hslots
    -- the units that were added are empty
    have hold : ∀ e, grown.find? kind = some e → s.unitEntryAt? n kind = some e := by
      intro e he
      rw [growTables, List.getElem?_append, List.getElem?_replicate] at hgrown
      split at hgrown
      · rw [unitEntryAt?, hgrown, Option.bind_some, he]
      · split at hgrown
        · obtain rfl := Option.some.inj hgrown
          cases he
        · cases hgrown
    split at hfound
    · rw [Table.find?_insert] at hfound
      split at hfound
      next hkind => exact .inl ⟨hkind.symm, (Option.some.inj hfound).symm⟩
      next => exact .inr (hold e hfound)
    · exact .inr (hold e hfound)

/-- An attribute that is set goes to a slot where it belongs, and the other slots keep their entries. -/
lemma entryIn?_of_setAttribute {a : Attribute} {mode : Mode}
    (h : (s.setAttribute a mode).entryIn? name = some e) :
    (name.Fits a ∧ e = { value := a, mode }) ∨ s.entryIn? name = some e := by
  rw [setAttribute] at h
  split at h
  · exact entryIn?_of_setUnitAttribute h
  next hkind =>
    cases name with
    | ofUnit unit kind => exact .inr h
    | ofKey key =>
      rw [entryIn?, entryAt?, Table.find?_insert] at h
      split at h
      next hkey => exact .inl ⟨⟨hkey.symm, Bool.eq_false_iff.2 hkind⟩, (Option.some.inj h).symm⟩
      next => exact .inr h

/-- What is there after an attribute was removed was there before. -/
lemma entryIn?_of_removeAttribute {key : AttributeKey}
    (h : (s.removeAttribute key).entryIn? name = some e) : s.entryIn? name = some e := by
  cases name with
  | ofUnit unit kind => exact h
  | ofKey other =>
    exact Table.find?_eq_some_iff.2 (List.mem_filter.1 (Table.find?_eq_some_iff.1 h)).1

end StateSet

/-- A copy has what its original has. -/
lemma SharedSet.entryIn?_copy (s : SharedSet) (name : SlotName) :
    s.copy.entryIn? name = (s.content.entryIn? name).map s.copyEntry := by
  cases name with
  | ofKey key => exact Table.find?_mapValues _ _ key
  | ofUnit unit kind =>
    rw [StateSet.entryIn?, StateSet.unitEntryAt?, copy, List.getElem?_map, StateSet.entryIn?,
      StateSet.unitEntryAt?]
    cases s.content.units[unit]? with
    | none => rfl
    | some entries => exact Table.find?_mapValues _ _ kind

/-! ## How sets are made -/

namespace StateSet

/-- The sets that can be made when the sets below a number are shared. -/
inductive Made (content : Nat → StateSet) (number : Nat) : StateSet → Prop where
  | empty (name : Option String) : Made content number { name }
  | copy {i : Nat} : i < number → Made content number (SharedSet.mk i (content i)).copy
  | rename {s : StateSet} (name : Option String) :
      Made content number s → Made content number { s with name }
  | setAttribute {s : StateSet} (a : Attribute) (mode : Mode) :
      Made content number s → Made content number (s.setAttribute a mode)
  | setUnitAttribute {s : StateSet} (unit : Nat) (a : Attribute) (mode : Mode) :
      Made content number s → Made content number (s.setUnitAttribute unit a mode)
  | removeAttribute {s : StateSet} (key : AttributeKey) :
      Made content number s → Made content number (s.removeAttribute key)
  | setUniform {s : StateSet} (name : String) (value : UniformValue) (mode : Mode) :
      Made content number s → Made content number (s.setUniform name value mode)
  | setMaterial {s : StateSet} (d : Description) :
      Made content number s → Made content number { s with material := some d }

/-- What holds of the attributes that are set, and of those that a copy has, holds of all that a set
has. -/
lemma Made.forall_entry {content : Nat → StateSet} {number : Nat} {s : StateSet}
    {P : SlotName → SetEntry → Prop}
    (hset : ∀ (name : SlotName) (a : Attribute) (mode : Mode), name.Fits a →
      P name { value := a, mode })
    (hcopy : ∀ i < number, ∀ name e, (content i).entryIn? name = some e →
      P name ((SharedSet.mk i (content i)).copyEntry e))
    (h : Made content number s) {name : SlotName} {e : SetEntry} (he : s.entryIn? name = some e) :
    P name e := by
  induction h with
  | empty _ => cases name <;> cases he
  | copy hi =>
    rw [SharedSet.entryIn?_copy] at he
    obtain ⟨original, horiginal, rfl⟩ := Option.map_eq_some_iff.1 he
    exact hcopy _ hi name original horiginal
  | setAttribute a mode _ ih =>
    obtain ⟨hfits, rfl⟩ | he := entryIn?_of_setAttribute he
    · exact hset name a mode hfits
    · exact ih he
  | setUnitAttribute unit a mode _ ih =>
    obtain ⟨hfits, rfl⟩ | he := entryIn?_of_setUnitAttribute he
    · exact hset name a mode hfits
    · exact ih he
  | removeAttribute key _ ih => exact ih (entryIn?_of_removeAttribute he)
  | rename _ _ ih | setUniform _ _ _ _ ih | setMaterial _ _ ih =>
    refine ih ?_
    cases name <;> exact he

end StateSet

/-! ## The sets of a run -/

/-- The sets that are shared in a run, in the order in which they were shared. -/
structure SharedSets where
  content : Nat → StateSet
  made : ∀ number, StateSet.Made content number (content number)

namespace SharedSets

variable (sets : SharedSets)

/-- The shared set of an identity. -/
def set (identity : Nat) : SharedSet := ⟨identity, sets.content identity⟩

/-- What was made for a slot of the set of an identity: the attribute there, unless it came into the
set by copying. -/
def madeFor? (name : SlotName) (identity : Nat) : Option Attribute :=
  ((sets.content identity).entryIn? name).bind fun e =>
    if e.source.isNone then some e.value else none

/-- **A shared set and a slot determine an attribute.** Every attribute of a set is in a slot where it
belongs, and is the one that was made for this slot of its source. -/
theorem entry {identity : Nat} (name : SlotName) {e : SetEntry}
    (h : (sets.content identity).entryIn? name = some e) :
    name.Fits e.value ∧ sets.madeFor? name ((sets.set identity).sourceOf e) = some e.value := by
  induction identity using Nat.strong_induction_on generalizing name e with
  | _ identity ih =>
    obtain ⟨hfits, hsource⟩ := (sets.made identity).forall_entry
      (P := fun name e => name.Fits e.value ∧ ∀ i ∈ e.source, sets.madeFor? name i = some e.value)
      (fun _ _ _ hfits => ⟨hfits, fun i hi => absurd hi (Option.not_mem_none i)⟩)
      (fun i hi _ _ he => (ih i hi _ he).imp_right fun hof _ hj => Option.some.inj hj ▸ hof) h
    refine ⟨hfits, ?_⟩
    cases hs : e.source with
    | none => simp [madeFor?, SharedSet.sourceOf, set, hs, h]
    | some i =>
      rw [SharedSet.sourceOf, hs]
      exact hsource i hs

/-- What was made for a slot belongs there. -/
lemma fits_of_madeFor? {name : SlotName} {identity : Nat} {a : Attribute}
    (h : sets.madeFor? name identity = some a) : name.Fits a := by
  obtain ⟨e, he, hown⟩ := Option.bind_eq_some_iff.1 h
  split at hown
  · obtain rfl := Option.some.inj hown
    exact (sets.entry name he).1
  · cases hown

end SharedSets

end SceneShading
