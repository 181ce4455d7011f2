import Mathlib.Tactic
import SceneShading.Program.Generator

/-!
# The choice of a program

Which program a generator chooses for a request is decided by the attributes outside the texture
units, by those in each unit, and by the description. A request lists its units one after another,
and empty units at its end have no say: neither the key of a request nor the roles of its attributes
change when the list is padded with empty units (`Generator.programFor_padded`). Hence requests that
are alike get the same program (`ProgramRequest.Alike.programFor_eq`).

A generator keeps the programs that it chose. However often it is asked after that, it chooses the
same program for the same request (`Generator.Later.programFor_eq`), and the key of a program is
that of the request it was chosen for (`Generator.key_of_programFor`).
-/

namespace SceneShading

namespace ProgramRequest

/-! ## Empty units -/

/-- The request with empty texture units at the end. -/
def padded (r : ProgramRequest) (n : Nat) : ProgramRequest :=
  { r with units := r.units ++ List.replicate n [] }

/-- What is collected from units one after another is not changed by empty units at the end, if
nothing is collected from an empty unit. -/
lemma flatMap_zipIdx_padded {β : Type} {collect : List Attribute × Nat → List β}
    (hcollect : ∀ unit, collect ([], unit) = []) (units : List (List Attribute)) (n : Nat) :
    (units ++ List.replicate n []).zipIdx.flatMap collect = units.zipIdx.flatMap collect := by
  rw [List.zipIdx_append, List.flatMap_append]
  have hempty : ((List.replicate n []).zipIdx (0 + units.length)).flatMap collect = [] := by
    refine List.flatMap_eq_nil_iff.2 fun u hu => ?_
    obtain ⟨attributes, unit⟩ := u
    obtain rfl : attributes = [] := List.eq_of_mem_replicate (List.fst_mem_of_mem_zipIdx hu)
    exact hcollect unit
  rw [hempty, List.append_nil]

/-- Empty units at the end are not in the key. -/
lemma key_padded (limits : BoneLimits) (r : ProgramRequest) (n : Nat) :
    (r.padded n).key limits = r.key limits := by
  have hunits : unitParts limits (r.padded n).units = unitParts limits r.units :=
    flatMap_zipIdx_padded (fun _ => rfl) r.units n
  rw [key, parts, hunits, key, parts]
  rfl

/-- Empty units at the end play no role. -/
lemma roles_padded (r : ProgramRequest) (n : Nat) : (r.padded n).roles = r.roles := by
  have hunits : ∀ {α : Type} (role? : Attribute → Option α),
      Roles.ofUnits role? (r.padded n).units = Roles.ofUnits role? r.units := by
    intro α role?
    exact flatMap_zipIdx_padded (fun _ => rfl) r.units n
  rw [roles, Roles.ofAttributes, hunits, hunits, roles, Roles.ofAttributes]
  rfl

/-- The part of a padded request that matters is the part that matters, or that part padded: a depth
pass drops the units. -/
lemma effective_padded (settings : Settings) (r : ProgramRequest) (n : Nat) :
    (r.padded n).effective settings = r.effective settings ∨
      (r.padded n).effective settings = (r.effective settings).padded n := by
  have hunits : (r.padded n).units.map (accepted settings) =
      r.units.map (accepted settings) ++ List.replicate n [] := by
    rw [padded, List.map_append, List.map_replicate]
    rfl
  simp only [effective, hunits, narrowed]
  by_cases hcasts : castsShadow
      { r with
        attributes := accepted settings r.attributes
        units := r.units.map (accepted settings) }
  · exact .inl ((if_pos hcasts).trans (if_pos hcasts).symm)
  · refine .inr ((if_neg hcasts).trans ?_)
    rw [if_neg hcasts]
    rfl

/-- What matters in a request without description has none either. -/
lemma description_effective_eq_none (settings : Settings) {r : ProgramRequest}
    (h : r.description = none) : (r.effective settings).description = none := by
  rw [effective, narrowed]
  split
  · rfl
  · exact h

/-- Requests with the same description and the same attributes, outside the texture units and in
every unit. One of them may list more empty units at the end. -/
structure Alike (r r' : ProgramRequest) : Prop where
  attributes : r.attributes = r'.attributes
  units : ∀ unit : Nat, r.units[unit]?.getD [] = r'.units[unit]?.getD []
  description : r.description = r'.description

/-- Up to the end of the padding, a padded list of units has what the list has, or nothing. -/
lemma getElem?_padded (units : List (List Attribute)) (n unit : Nat) :
    (units ++ List.replicate n [])[unit]? =
      if unit < units.length + n then some (units[unit]?.getD []) else none := by
  rw [List.getElem?_append, List.getElem?_replicate]
  by_cases hlt : unit < units.length
  · rw [if_pos hlt, if_pos (Nat.lt_add_right n hlt), List.getElem?_eq_getElem hlt]
    rfl
  · have hiff : unit - units.length < n ↔ unit < units.length + n := by omega
    rw [if_neg hlt, List.getElem?_eq_none (Nat.le_of_not_lt hlt)]
    simp only [hiff, Option.getD_none]

/-- Padded to one length, alike requests are the same. -/
lemma Alike.padded_eq {r r' : ProgramRequest} (h : r.Alike r') :
    r.padded r'.units.length = r'.padded r.units.length := by
  have hunits : r.units ++ List.replicate r'.units.length [] =
      r'.units ++ List.replicate r.units.length [] := by
    refine List.ext_getElem? fun unit => ?_
    rw [getElem?_padded, getElem?_padded, h.units, Nat.add_comm]
  rw [padded, padded, hunits, h.attributes, h.description]

end ProgramRequest

namespace Generator

/-! ## Requests that are alike -/

/-- The key under which a generator keeps the program of a request. -/
def keyOf (g : Generator) (r : ProgramRequest) : ProgramKey :=
  (r.effective g.context.settings).key g.context.boneLimits

/-- The program of a request is the one that is kept under its key, or a new one. -/
lemma programFor_eq_elim (g : Generator) (r : ProgramRequest) :
    g.programFor r = (g.find? (g.keyOf r)).elim
      ((g.compile (r.effective g.context.settings)).map (g.insert (g.keyOf r)))
      fun program => .ok (program, g) := by
  rw [programFor, ← keyOf]
  cases g.find? (g.keyOf r) <;> rfl

/-- Empty units at the end do not change the choice. -/
lemma programFor_padded (g : Generator) (r : ProgramRequest) (n : Nat) :
    g.programFor (r.padded n) = g.programFor r := by
  have hkey : g.keyOf (r.padded n) = g.keyOf r := by
    rcases r.effective_padded g.context.settings n with h | h
    · rw [keyOf, h, keyOf]
    · rw [keyOf, h, ProgramRequest.key_padded, keyOf]
  have hcompile : g.compile ((r.padded n).effective g.context.settings) =
      g.compile (r.effective g.context.settings) := by
    rcases r.effective_padded g.context.settings n with h | h
    · rw [h]
    · rw [h, compile, ProgramRequest.roles_padded, compile]
      rfl
  rw [programFor_eq_elim, hkey, hcompile, ← programFor_eq_elim]

end Generator

/-- **Requests that are alike get the same program.** -/
theorem ProgramRequest.Alike.programFor_eq {r r' : ProgramRequest} (h : r.Alike r')
    (g : Generator) : g.programFor r = g.programFor r' := by
  rw [← g.programFor_padded r r'.units.length, h.padded_eq, g.programFor_padded]

namespace Generator

/-! ## Asking again -/

/-- The generators that requests make of a generator, its context being left alone. -/
inductive Later (g : Generator) : Generator → Prop where
  | refl : Later g g
  | ask {g' g'' : Generator} {r : ProgramRequest} {p : Program} :
      Later g g' → g'.programFor r = .ok (p, g'') → Later g g''

/-- A program is chosen because it is kept, or it is compiled and kept from then on. -/
lemma of_programFor {g g' : Generator} {r : ProgramRequest} {p : Program}
    (h : g.programFor r = .ok (p, g')) :
    (g.find? (g.keyOf r) = some p ∧ g' = g) ∨
      (g.find? (g.keyOf r) = none ∧ ∃ stages,
        g.compile (r.effective g.context.settings) = .ok stages ∧
          p = (g.insert (g.keyOf r) stages).1 ∧ g' = (g.insert (g.keyOf r) stages).2) := by
  rw [programFor_eq_elim] at h
  cases hkept : g.find? (g.keyOf r) with
  | some program =>
    rw [hkept] at h
    obtain ⟨rfl, rfl⟩ := Prod.mk.inj (Except.ok.inj h)
    exact .inl ⟨rfl, rfl⟩
  | none =>
    rw [hkept] at h
    cases hstages : g.compile (r.effective g.context.settings) with
    | error fault =>
      rw [hstages] at h
      exact absurd h (by rintro ⟨⟩)
    | ok stages =>
      rw [hstages] at h
      obtain ⟨rfl, rfl⟩ := Prod.mk.inj (Except.ok.inj h)
      exact .inr ⟨rfl, stages, rfl, rfl, rfl⟩

/-- A new program is found under its key, and the other keys keep theirs. -/
lemma find?_insert (g : Generator) (key : ProgramKey) (stages : CompiledProgram)
    (key' : ProgramKey) :
    (g.insert key stages).2.find? key' =
      if key = key' then some (g.insert key stages).1 else g.find? key' := by
  rw [find?, insert, List.find?_cons, find?]
  by_cases h : key = key'
  · simp [h]
  · have hfalse : (key == key') = false := beq_false_of_ne h
    simp [h, hfalse]

/-- The key of a program is that of the request it was chosen for. -/
lemma key_of_programFor {g g' : Generator} {r : ProgramRequest} {p : Program}
    (h : g.programFor r = .ok (p, g')) : p.key = g.keyOf r := by
  rcases of_programFor h with ⟨hkept, -⟩ | ⟨-, stages, -, rfl, -⟩
  · have hkey := List.find?_some (p := fun q : Program => q.key == g.keyOf r) hkept
    exact eq_of_beq hkey
  · rfl

/-- Choosing a program leaves the context alone. -/
lemma context_of_programFor {g g' : Generator} {r : ProgramRequest} {p : Program}
    (h : g.programFor r = .ok (p, g')) : g'.context = g.context := by
  rcases of_programFor h with ⟨-, rfl⟩ | ⟨-, stages, -, -, rfl⟩
  · rfl
  · rfl

/-- A chosen program is kept. -/
lemma find?_of_programFor {g g' : Generator} {r : ProgramRequest} {p : Program}
    (h : g.programFor r = .ok (p, g')) : g'.find? (g.keyOf r) = some p := by
  rcases of_programFor h with ⟨hkept, rfl⟩ | ⟨-, stages, -, rfl, rfl⟩
  · exact hkept
  · rw [find?_insert, if_pos rfl]

/-- What is kept stays kept when a program is chosen. -/
lemma find?_stays {g g' : Generator} {r : ProgramRequest} {p : Program}
    (h : g.programFor r = .ok (p, g')) {key : ProgramKey} {q : Program}
    (hq : g.find? key = some q) : g'.find? key = some q := by
  rcases of_programFor h with ⟨-, rfl⟩ | ⟨hnone, stages, -, -, rfl⟩
  · exact hq
  · have hne : g.keyOf r ≠ key := by
      rintro rfl
      exact Option.some_ne_none q (hq.symm.trans hnone)
    rw [find?_insert, if_neg hne, hq]

/-- What is kept stays kept, however often a generator is asked. -/
lemma Later.find? {g g' : Generator} (h : g.Later g') {key : ProgramKey} {q : Program}
    (hq : g.find? key = some q) : g'.find? key = some q := by
  induction h with
  | refl => exact hq
  | ask _ hask ih => exact find?_stays hask ih

/-- However often a generator is asked, its context is left alone. -/
lemma Later.context {g g' : Generator} (h : g.Later g') : g'.context = g.context := by
  induction h with
  | refl => rfl
  | ask _ hask ih => exact (context_of_programFor hask).trans ih

/-- **The choice for a request stays.** A generator that chose a program for a request chooses it
again for the request, whatever it was asked in between, and is not changed by that. -/
theorem Later.programFor_eq {g g₁ g₂ : Generator} {r : ProgramRequest} {p : Program}
    (h : g₁.Later g₂) (hp : g.programFor r = .ok (p, g₁)) : g₂.programFor r = .ok (p, g₂) := by
  have hcontext : g₂.context = g.context := h.context.trans (context_of_programFor hp)
  have hkey : g₂.keyOf r = g.keyOf r := by rw [keyOf, hcontext, keyOf]
  have hkept : g₂.find? (g₂.keyOf r) = some p := by
    rw [hkey]
    exact h.find? (find?_of_programFor hp)
  rw [programFor_eq_elim, hkept, Option.elim_some]

end Generator

end SceneShading
