import Mathlib.Tactic
import SceneShading.Proofs.Program.Choice
import SceneShading.State.Pipeline

/-!
# Active attributes in order

Slots are kept in the order in which they appeared, which depends on what was pushed before. The
active values of slots are listed in the order of their keys instead, and that list depends on the
active values alone: it is strictly increasing and has an element for every key with an active value
(`activeEntries_pairwise`, `mem_activeEntries`), and there is only one such list
(`activeEntries_congr`).

States with the same active attributes and the same material therefore ask for the same program,
although the numbers of their texture units may differ (`request_alike`).
-/

namespace SceneShading

namespace PipelineState

section Order

variable {κ ρ : Type} [LinearOrder ρ] (before : κ → κ → Bool) (slots : Table κ AttributeSlot)

/-- The active values of slots with their keys, in an order of the keys. -/
def activeEntries : List (κ × Attribute) :=
  (slots.entries.filterMap fun e => e.2.active?.map (e.1, ·.value)).mergeSort
    fun a b => !before b.1 a.1

/-- The active values of slots are those with keys, without the keys. -/
lemma activeValues_eq_map :
    activeValues before slots = (activeEntries before slots).map (·.2) := rfl

/-- Keys are put before one another as their ranks say, and different keys have different ranks. -/
structure OrderedBy (rank : κ → ρ) : Prop where
  injective : Function.Injective rank
  before_iff : ∀ a b, before a b ↔ rank a < rank b

/-- No key has two active values. -/
lemma activeEntries_keys_ne : (activeEntries before slots).Pairwise fun a b => a.1 ≠ b.1 := by
  have hslots : slots.entries.Pairwise fun a b => a.1 ≠ b.1 := List.pairwise_map.1 slots.nodup
  refine ((List.mergeSort_perm _ _).pairwise_iff fun h => h.symm).2 ?_
  refine hslots.filterMap _ fun e e' hne b hb b' hb' => ?_
  obtain ⟨held, -, rfl⟩ := Option.map_eq_some_iff.1 hb
  obtain ⟨held', -, rfl⟩ := Option.map_eq_some_iff.1 hb'
  exact hne

variable {before}

/-- The active values are listed in the order of their keys, which increases strictly. -/
lemma activeEntries_pairwise {rank : κ → ρ} (hrank : OrderedBy before rank) :
    (activeEntries before slots).Pairwise fun a b => before a.1 b.1 := by
  have hnot : ∀ a b : κ × Attribute, (!before b.1 a.1) = true ↔ rank a.1 ≤ rank b.1 := by
    intro a b
    rw [Bool.not_eq_true', Bool.eq_false_iff, ne_eq, hrank.before_iff, not_lt]
  have hsorted : (activeEntries before slots).Pairwise fun a b => (!before b.1 a.1) = true := by
    refine List.pairwise_mergeSort (fun a b c hab hbc => ?_) (fun a b => ?_) _
    · exact (hnot a c).2 (((hnot a b).1 hab).trans ((hnot b c).1 hbc))
    · rw [Bool.or_eq_true, hnot, hnot]
      exact le_total (rank a.1) (rank b.1)
  refine hsorted.imp₂ (fun a b hab hne => ?_) (activeEntries_keys_ne before slots)
  have hle : rank a.1 ≤ rank b.1 := (hnot a b).1 hab
  exact (hrank.before_iff a.1 b.1).2 (lt_of_le_of_ne hle (hrank.injective.ne hne))

end Order

/-! ## Two lists of the same values -/

section Lookup

variable {κ ρ : Type} [DecidableEq κ] [LinearOrder ρ]

/-- The active value of a key. -/
def activeAt? (slots : Table κ AttributeSlot) (key : κ) : Option Attribute :=
  ((slots.find? key).bind (·.active?)).map (·.value)

/-- A key and a value are listed exactly when the value is the active one of the key. -/
lemma mem_activeEntries {before : κ → κ → Bool} {slots : Table κ AttributeSlot} {key : κ}
    {a : Attribute} : (key, a) ∈ activeEntries before slots ↔ activeAt? slots key = some a := by
  rw [activeEntries, (List.mergeSort_perm _ _).mem_iff, List.mem_filterMap, activeAt?,
    Option.map_eq_some_iff]
  constructor
  · rintro ⟨⟨k, slot⟩, hmem, hactive⟩
    obtain ⟨held, hheld, heq⟩ := Option.map_eq_some_iff.1 hactive
    obtain ⟨rfl, rfl⟩ := Prod.mk.inj heq
    exact ⟨held, Option.bind_eq_some_iff.2 ⟨slot, Table.find?_eq_some_iff.2 hmem, hheld⟩, rfl⟩
  · rintro ⟨held, hbind, rfl⟩
    obtain ⟨slot, hslot, hheld⟩ := Option.bind_eq_some_iff.1 hbind
    refine ⟨(key, slot), Table.find?_eq_some_iff.1 hslot, ?_⟩
    rw [hheld]
    rfl

/-- The list of active values depends on the active values alone. -/
lemma activeEntries_congr {before : κ → κ → Bool} {rank : κ → ρ} (hrank : OrderedBy before rank)
    {slots slots' : Table κ AttributeSlot}
    (h : ∀ key, activeAt? slots key = activeAt? slots' key) :
    activeEntries before slots = activeEntries before slots' := by
  have hnodup : ∀ t : Table κ AttributeSlot, (activeEntries before t).Nodup := fun t =>
    (activeEntries_keys_ne before t).imp fun hne heq => hne (congrArg Prod.fst heq)
  have hperm : (activeEntries before slots).Perm (activeEntries before slots') := by
    refine (List.perm_ext_iff_of_nodup (hnodup slots) (hnodup slots')).2 fun e => ?_
    rw [mem_activeEntries, mem_activeEntries, h]
  refine hperm.eq_of_pairwise (fun a b _ _ hab hba => ?_) (activeEntries_pairwise slots hrank)
    (activeEntries_pairwise slots' hrank)
  have hlt := ((hrank.before_iff a.1 b.1).1 hab).trans ((hrank.before_iff b.1 a.1).1 hba)
  exact absurd hlt (lt_irrefl (rank a.1))

end Lookup

/-! ## The orders of keys and kinds -/

/-- Keys are ordered by the ranks of their kinds, then by their members. -/
lemma orderedBy_lt : OrderedBy AttributeKey.lt fun key => toLex (key.kind.rank, key.member) where
  injective := by
    intro a b h
    obtain ⟨hrank, hmember⟩ := Prod.mk.inj (toLex.injective h)
    cases a
    cases b
    exact congrArg₂ AttributeKey.mk (Kind.rank_injective hrank) hmember
  before_iff a b := by
    rw [Prod.Lex.toLex_lt_toLex, AttributeKey.lt]
    simp

/-- Kinds are ordered by their ranks. -/
lemma orderedBy_rank : OrderedBy (fun a b : Kind => decide (a.rank < b.rank)) Kind.rank where
  injective _ _ := Kind.rank_injective
  before_iff _ _ := decide_eq_true_iff

/-! ## What is asked for -/

/-- The slots of a texture unit; a state has a unit as soon as anything touched it or a later
one. -/
def unitSlots (s : PipelineState) (unit : Nat) : Table Kind AttributeSlot :=
  s.units[unit]?.getD .empty

/-- The active attribute of a kind in a unit is that of the slots of the unit. -/
lemma unitAttribute?_eq (s : PipelineState) (unit : Nat) (kind : Kind) :
    s.unitAttribute? unit kind = activeAt? (s.unitSlots unit) kind := by
  rw [unitAttribute?, activeAt?, unitSlots]
  cases s.units[unit]? <;> rfl

/-- The active attributes of a unit are those of the slots of the unit. -/
lemma activeUnits_getD (s : PipelineState) (unit : Nat) :
    s.activeUnits[unit]?.getD [] =
      activeValues (fun a b => decide (a.rank < b.rank)) (s.unitSlots unit) := by
  rw [activeUnits, List.getElem?_map, unitSlots]
  cases s.units[unit]? with
  | none => simp [activeValues, Table.empty]
  | some slots => rfl

/-- States with the same active attributes list them in the same way. -/
lemma activeAttributes_congr {s s' : PipelineState}
    (h : ∀ key, s.attribute? key = s'.attribute? key) :
    s.activeAttributes = s'.activeAttributes := by
  rw [activeAttributes, activeAttributes, activeValues_eq_map, activeValues_eq_map,
    activeEntries_congr orderedBy_lt h]

/-- States with the same active attributes and the same material make requests that are alike. -/
lemma request_alike {s s' : PipelineState}
    (hattribute : ∀ key, s.attribute? key = s'.attribute? key)
    (hunit : ∀ unit kind, s.unitAttribute? unit kind = s'.unitAttribute? unit kind)
    (hmaterial : s.material? = s'.material?) : s.request.Alike s'.request where
  attributes := activeAttributes_congr hattribute
  units unit := by
    change s.activeUnits[unit]?.getD [] = s'.activeUnits[unit]?.getD []
    have hslots : ∀ kind, activeAt? (s.unitSlots unit) kind = activeAt? (s'.unitSlots unit) kind :=
      fun kind => by rw [← unitAttribute?_eq, ← unitAttribute?_eq, hunit]
    rw [activeUnits_getD, activeUnits_getD, activeValues_eq_map, activeValues_eq_map,
      activeEntries_congr orderedBy_rank hslots]
  description := hmaterial

end PipelineState

end SceneShading
