import Mathlib.Tactic
import SceneShading.State.Stack

/-!
# The value that prevails

An override stack is built push by push: under an overriding top a pushed value is dropped and the
top repeated, unless the pushed value is protected. What is on top in the end can be told from the
pushed values alone. Nothing that lies before the last protected value matters; from there on, the
first overriding value wins, and the last value wins if none overrides.

`ModeStack.piled` is the stack push by push and `ModeStack.prevailingPlace` the place of the winner,
and `ModeStack.head?_piled` says that they agree. The induction adds one value at the end, and
`ModeStack.overriding?` is what it carries along.
-/

namespace SceneShading

namespace ModeStack

variable {α : Type}

/-- The entries of a stack, innermost first, after values were pushed one after another. -/
def piled (values : List (α × Mode)) : List (α × Mode) :=
  values.foldl (fun entries value => prevailing entries value :: entries) []

/-- The last place of a protected value, or the first place if no value is protected. -/
def lastProtected (values : List (α × Mode)) : Nat :=
  (values.zipIdx.filter (·.1.2.isProtected)).getLast?.elim 0 (·.2)

/-- The first overriding value from the last protected one on, with its place. -/
def overriding? (values : List (α × Mode)) : Option ((α × Mode) × Nat) :=
  (values.zipIdx.drop (lastProtected values)).find? (·.1.2.overrides)

/-- The place of the value that prevails: that of the first overriding value from the last protected
one on, or the last place if there is none. -/
def prevailingPlace (values : List (α × Mode)) : Nat :=
  (overriding? values).elim (values.length - 1) (·.2)

/-- The value that prevails. -/
def prevailing? (values : List (α × Mode)) : Option (α × Mode) := values[prevailingPlace values]?

/-! ## One more value -/

/-- One more value goes on top of the stack, as the stack takes it. -/
lemma piled_concat (values : List (α × Mode)) (value : α × Mode) :
    piled (values ++ [value]) = prevailing (piled values) value :: piled values := by
  rw [piled, List.foldl_append, List.foldl_cons, List.foldl_nil, piled]

/-- There is an entry for every value. -/
theorem length_piled (values : List (α × Mode)) : (piled values).length = values.length := by
  induction values using List.reverseRecOn with
  | nil => rfl
  | append_singleton values value ih =>
    rw [piled_concat, List.length_cons, ih, List.length_append, List.length_singleton]

/-- A value at the end is the last protected one if it is protected, and does not matter if not. -/
lemma lastProtected_concat (values : List (α × Mode)) (value : α × Mode) :
    lastProtected (values ++ [value]) =
      if value.2.isProtected then values.length else lastProtected values := by
  simp only [lastProtected, List.zipIdx_append, List.filter_append, Nat.zero_add]
  by_cases h : value.2.isProtected <;> simp [h]

/-- The last protected value is one of the values. -/
lemma lastProtected_lt {values : List (α × Mode)} (h : values ≠ []) :
    lastProtected values < values.length := by
  induction values using List.reverseRecOn with
  | nil => exact absurd rfl h
  | append_singleton values value ih =>
    rw [lastProtected_concat, List.length_append, List.length_singleton]
    split_ifs
    · exact Nat.lt_add_one values.length
    · by_cases hnil : values = []
      · subst hnil
        exact Nat.one_pos
      · exact (ih hnil).trans (Nat.lt_add_one values.length)

/-- The last protected place is a place. -/
lemma lastProtected_le (values : List (α × Mode)) : lastProtected values ≤ values.length := by
  by_cases hnil : values = []
  · subst hnil
    exact le_rfl
  · exact (lastProtected_lt hnil).le

/-- After a protected value nothing before it is looked at. -/
lemma overriding?_concat_of_isProtected (values : List (α × Mode)) {value : α × Mode}
    (h : value.2.isProtected) :
    overriding? (values ++ [value]) =
      [(value, values.length)].find? (·.1.2.overrides) := by
  have hdrop : values.zipIdx.length ≤ values.length := (List.length_zipIdx).le
  rw [overriding?, lastProtected_concat, if_pos h, List.zipIdx_append, List.drop_append,
    List.drop_eq_nil_of_le hdrop]
  simp

/-- A value that is not protected does not hide an overriding one. -/
lemma overriding?_concat_of_not_isProtected (values : List (α × Mode)) {value : α × Mode}
    (h : ¬ value.2.isProtected) :
    overriding? (values ++ [value]) =
      (overriding? values).or ([(value, values.length)].find? (·.1.2.overrides)) := by
  have hle : lastProtected values ≤ values.zipIdx.length := by
    rw [List.length_zipIdx]
    exact lastProtected_le values
  rw [overriding?, lastProtected_concat, if_neg h, List.zipIdx_append,
    List.drop_append_of_le_length hle, List.find?_append, overriding?]
  simp

/-! ## The value at the place -/

/-- An overriding value that is found overrides, and is where it was found. -/
lemma of_overriding?_eq_some {values : List (α × Mode)} {found : (α × Mode) × Nat}
    (h : overriding? values = some found) :
    found.1.2.overrides ∧ values[found.2]? = some found.1 := by
  have hmem := List.mem_of_mem_drop (List.mem_of_find?_eq_some h)
  have hoverrides := List.find?_some (p := fun e : (α × Mode) × Nat => e.1.2.overrides) h
  exact ⟨hoverrides, List.mem_zipIdx_iff_getElem?.1 hmem⟩

/-- If no overriding value is found, the last value does not override. -/
lemma not_overrides_of_overriding?_eq_none {values : List (α × Mode)} {value : α × Mode}
    (h : overriding? values = none) (hlast : values[values.length - 1]? = some value) :
    value.2.overrides = false := by
  have hlt : values.length - 1 < values.length := (List.getElem?_eq_some_iff.1 hlast).1
  have hne : values ≠ [] := List.ne_nil_of_length_pos (Nat.zero_lt_of_lt hlt)
  have hmem : (value, values.length - 1) ∈ values.zipIdx.drop (lastProtected values) := by
    have hle : lastProtected values ≤ values.length - 1 :=
      Nat.le_sub_one_of_lt (lastProtected_lt hne)
    refine List.mem_drop_iff_getElem.2 ⟨values.length - 1 - lastProtected values, ?_, ?_⟩
    · rw [List.length_zipIdx]
      omega
    · simp only [List.getElem_zipIdx]
      have hplace : lastProtected values + (values.length - 1 - lastProtected values) =
          values.length - 1 := by omega
      simp only [hplace, Nat.zero_add, Prod.mk.injEq, and_true]
      exact (List.getElem?_eq_some_iff.1 hlast).2
  have hnot := List.find?_eq_none.1 h _ hmem
  simpa using hnot

/-- An overriding value that is found prevails. -/
lemma prevailing?_of_overriding?_eq_some {values : List (α × Mode)} {found : (α × Mode) × Nat}
    (h : overriding? values = some found) : prevailing? values = some found.1 := by
  rw [prevailing?, prevailingPlace, h]
  exact (of_overriding?_eq_some h).2

/-- If no overriding value is found, the last value prevails. -/
lemma prevailing?_of_overriding?_eq_none {values : List (α × Mode)}
    (h : overriding? values = none) : prevailing? values = values[values.length - 1]? := by
  rw [prevailing?, prevailingPlace, h]
  rfl

/-- The value at the end prevails if the search finds it or nothing. -/
lemma prevailing?_concat_of_find? (values : List (α × Mode)) (value : α × Mode)
    (h : overriding? (values ++ [value]) =
      [(value, values.length)].find? (·.1.2.overrides)) :
    prevailing? (values ++ [value]) = some value := by
  cases hover : value.2.overrides with
  | true =>
    have hfound : overriding? (values ++ [value]) = some (value, values.length) :=
      h.trans (by simp [hover])
    exact prevailing?_of_overriding?_eq_some hfound
  | false =>
    rw [prevailing?_of_overriding?_eq_none (h.trans (by simp [hover])), List.length_append,
      List.length_singleton, Nat.add_sub_cancel, List.getElem?_append_right le_rfl, Nat.sub_self]
    rfl

/-! ## The top of the stack -/

/-- **The top of a stack is the value that prevails.** -/
theorem head?_piled (values : List (α × Mode)) : (piled values).head? = prevailing? values := by
  induction values using List.reverseRecOn with
  | nil => rfl
  | append_singleton values value ih =>
    rw [piled_concat, List.head?_cons, prevailing, ih]
    by_cases hprotected : value.2.isProtected
    · -- A protected value is taken as it is, and it is where the search starts.
      rw [prevailing?_concat_of_find? values value
        (overriding?_concat_of_isProtected values hprotected)]
      cases prevailing? values <;> simp [hprotected]
    · have hconcat := overriding?_concat_of_not_isProtected values hprotected
      cases hover : overriding? values with
      | some found =>
        -- An overriding value that won before wins again, since the stack repeats it.
        rw [hover, Option.some_or] at hconcat
        rw [prevailing?_of_overriding?_eq_some hover, prevailing?_of_overriding?_eq_some hconcat]
        simp [(of_overriding?_eq_some hover).1, hprotected]
      | none =>
        rw [hover, Option.none_or] at hconcat
        rw [prevailing?_of_overriding?_eq_none hover,
          prevailing?_concat_of_find? values value hconcat]
        cases hlast : values[values.length - 1]? with
        | none => rfl
        | some last => simp [not_overrides_of_overriding?_eq_none hover hlast]

/-- The overriding value is hidden by a protected one, and after that the last value prevails. -/
example : prevailing? [("a", .on), ("b", ⟨true, true, false⟩), ("c", ⟨true, false, true⟩),
    ("d", .on)] = some ("d", .on) := rfl

end ModeStack

end SceneShading
