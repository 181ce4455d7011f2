/-!
# Tables

A table maps finitely many keys to values, each key to one value. Keys keep the order in which they
were first inserted; what is shown of a table is put into an order of its own.
-/

namespace SceneShading

/-- A finite map from keys to values. -/
structure Table (κ α : Type) where
  entries : List (κ × α) := []
  nodup : (entries.map (·.1)).Nodup := by simp

namespace Table

variable {κ α β : Type}

/-- The table without keys. -/
def empty : Table κ α := {}

instance : Inhabited (Table κ α) := ⟨empty⟩

/-- The keys in the order of their first insertion. -/
def keys (t : Table κ α) : List κ := t.entries.map (·.1)

/-- The number of keys. -/
def size (t : Table κ α) : Nat := t.entries.length

/-- True of the table without keys. -/
def isEmpty (t : Table κ α) : Bool := t.entries.isEmpty

/-- The table with every value changed. -/
def mapValues (f : κ → α → β) (t : Table κ α) : Table κ β where
  entries := t.entries.map fun e => (e.1, f e.1 e.2)
  nodup := by
    rw [List.map_map]
    exact t.nodup

theorem keys_mapValues (f : κ → α → β) (t : Table κ α) : (t.mapValues f).keys = t.keys := by
  simp [keys, mapValues]

variable [DecidableEq κ]

/-- The value of a key. -/
def find? (t : Table κ α) (k : κ) : Option α := t.entries.lookup k

/-- The key has a value. -/
def contains (t : Table κ α) (k : κ) : Bool := decide (k ∈ t.keys)

/-- The table with the value of a key changed, if the key has a value. -/
def modify (t : Table κ α) (k : κ) (f : α → α) : Table κ α :=
  t.mapValues fun k' a => if k' = k then f a else a

/-- The table with a value for a key that may have one already. -/
def insert (t : Table κ α) (k : κ) (a : α) : Table κ α :=
  if h : k ∈ t.keys then t.modify k fun _ => a
  else
    { entries := t.entries ++ [(k, a)]
      nodup := by
        rw [List.map_append]
        refine List.nodup_append.2 ⟨t.nodup, by simp, ?_⟩
        intro x hx y hy
        simp only [List.map_cons, List.map_nil, List.mem_singleton] at hy
        rintro rfl
        exact h (hy ▸ hx) }

/-- The table with the value of a key changed; a key without a value is given one first. -/
def upsert (t : Table κ α) (k : κ) (initial : α) (f : α → α) : Table κ α :=
  if k ∈ t.keys then t.modify k f else t.insert k (f initial)

/-- The table without a key. -/
def erase (t : Table κ α) (k : κ) : Table κ α where
  entries := t.entries.filter fun e => decide (e.1 ≠ k)
  nodup := t.nodup.sublist (List.filter_sublist.map _)

theorem keys_modify (t : Table κ α) (k : κ) (f : α → α) : (t.modify k f).keys = t.keys := by
  simp [modify, keys_mapValues]

theorem keys_insert (t : Table κ α) (k : κ) (a : α) :
    (t.insert k a).keys = if k ∈ t.keys then t.keys else t.keys ++ [k] := by
  unfold insert
  split
  · rw [keys_modify]
  · simp [keys]

theorem keys_upsert (t : Table κ α) (k : κ) (initial : α) (f : α → α) :
    (t.upsert k initial f).keys = if k ∈ t.keys then t.keys else t.keys ++ [k] := by
  unfold upsert
  split
  · rw [keys_modify]
  · rename_i h
    simp [keys_insert, h]

/-! ## Looking up -/

/-- A key has a value exactly when the table has an entry for both. -/
theorem find?_eq_some_iff {t : Table κ α} {k : κ} {a : α} :
    t.find? k = some a ↔ (k, a) ∈ t.entries := by
  constructor
  · intro h
    obtain ⟨before, after, hsplit, -⟩ := List.lookup_eq_some_iff.1 h
    simp [hsplit]
  · intro h
    obtain ⟨before, after, hsplit⟩ := List.append_of_mem h
    refine List.lookup_eq_some_iff.2 ⟨before, after, hsplit, fun e he => ?_⟩
    have hnodup := t.nodup
    rw [hsplit, List.map_append, List.map_cons] at hnodup
    have hne := (List.nodup_append.1 hnodup).2.2 e.1 (List.mem_map_of_mem he) k (by simp)
    simpa using hne.symm

/-- A key has no value exactly when it is not among the keys. -/
theorem find?_eq_none_iff {t : Table κ α} {k : κ} : t.find? k = none ↔ k ∉ t.keys := by
  simp only [find?, List.lookup_eq_none_iff, keys, List.mem_map]
  grind

/-- The keys are those with a value. -/
theorem mem_keys_iff {t : Table κ α} {k : κ} : k ∈ t.keys ↔ (t.find? k).isSome := by
  rw [← Option.ne_none_iff_isSome, ne_eq, find?_eq_none_iff, Decidable.not_not]

/-- The empty table has no value for any key. -/
@[simp] theorem find?_empty (k : κ) : (empty : Table κ α).find? k = none := rfl

/-- Changing every value changes the value that a key has. -/
theorem find?_mapValues (f : κ → α → β) (t : Table κ α) (k : κ) :
    (t.mapValues f).find? k = (t.find? k).map (f k) := by
  change List.lookup k (t.entries.map fun e => (e.1, f e.1 e.2)) = _
  rw [find?]
  induction t.entries with
  | nil => rfl
  | cons e entries ih =>
    rw [List.map_cons, List.lookup_cons, List.lookup_cons, ih]
    cases h : k == e.1 with
    | true => simp [eq_of_beq h]
    | false => rfl

/-- Changing the value of one key leaves the other keys alone. -/
theorem find?_modify (t : Table κ α) (k k' : κ) (f : α → α) :
    (t.modify k f).find? k' = if k' = k then (t.find? k').map f else t.find? k' := by
  rw [modify, find?_mapValues]
  by_cases h : k' = k <;> simp [h]

/-- An inserted key has the value it was given, and the other keys keep theirs. -/
theorem find?_insert (t : Table κ α) (k k' : κ) (a : α) :
    (t.insert k a).find? k' = if k' = k then some a else t.find? k' := by
  unfold insert
  split
  next h =>
    rw [find?_modify]
    obtain ⟨b, hb⟩ := Option.isSome_iff_exists.1 (mem_keys_iff.1 h)
    by_cases hk : k' = k <;> simp [hk, hb]
  next h =>
    have hnone := find?_eq_none_iff.2 h
    simp only [find?] at hnone ⊢
    rw [List.lookup_append]
    by_cases hk : k' = k
    · simp [hk, hnone]
    · have hfalse : (k' == k) = false := beq_false_of_ne hk
      simp [hk, List.lookup_cons, hfalse]

/-- A key that is changed or made has the changed value, and the other keys keep theirs. -/
theorem find?_upsert (t : Table κ α) (k k' : κ) (initial : α) (f : α → α) :
    (t.upsert k initial f).find? k' =
      if k' = k then some (f ((t.find? k').getD initial)) else t.find? k' := by
  unfold upsert
  split
  next h =>
    obtain ⟨b, hb⟩ := Option.isSome_iff_exists.1 (mem_keys_iff.1 h)
    rw [find?_modify]
    by_cases hk : k' = k <;> simp [hk, hb]
  next h =>
    have hnone := find?_eq_none_iff.2 h
    rw [find?_insert]
    by_cases hk : k' = k <;> simp [hk, hnone]

/-! ## Folding -/

/-- A fold over the entries of a table that treats the keys apart: what is seen of one key is changed
once by the value of the key, and not at all if the key has none. -/
theorem view_foldl {γ δ : Type} (view : γ → δ) (step : γ → κ × α → γ) (change : α → δ → δ) (k : κ)
    (hstep : ∀ c e, view (step c e) = if e.1 = k then change e.2 (view c) else view c)
    (t : Table κ α) (c : γ) :
    view (t.entries.foldl step c) = (t.find? k).elim (view c) fun a => change a (view c) := by
  obtain ⟨entries, hnodup⟩ := t
  rw [find?]
  induction entries generalizing c with
  | nil => rfl
  | cons e entries ih =>
    obtain ⟨hnot, hnodup⟩ := List.nodup_cons.1 hnodup
    rw [List.foldl_cons, ih (step c e) hnodup, hstep, List.lookup_cons]
    by_cases h : e.1 = k
    · subst h
      have hnone : entries.lookup e.1 = none := by
        refine List.lookup_eq_none_iff.2 fun e' he' => ?_
        have hne : e.1 ≠ e'.1 := by
          intro h
          have hmem : e'.1 ∈ entries.map (·.1) := List.mem_map_of_mem he'
          rw [← h] at hmem
          exact hnot hmem
        simpa using hne
      simp [hnone]
    · have hfalse : (k == e.1) = false := beq_false_of_ne (Ne.symm h)
      simp [h, hfalse]

end Table

end SceneShading
