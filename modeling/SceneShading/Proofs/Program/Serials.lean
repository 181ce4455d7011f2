import Mathlib.Tactic
import SceneShading.Proofs.Program.Choice

/-!
# The numbers of programs

A generator is asked for programs, its context is edited, palettes are seen, and its programs are
dropped (`Generator.Step`). The programs that it makes on the way are numbered one after another, and
no number is given out twice, not even after the program of the number was dropped. Hence a program is
known by its maker and its number: whoever has been given one, and is given one of the same maker and
number later on, has been given the same program twice (`Generator.Numbered.eq_of_isSame`).

What carries this through a run is `Generator.Recalls`: a program that a generator made has a number
that was given out, and nothing else is kept under that number. The next program gets the number
`made`, which is greater (`Generator.Recalls.insert`), and the other steps keep no more than was kept
before.
-/

namespace SceneShading

namespace Generator

/-! ## Steps -/

/-- The parts of a request that matter to a generator. -/
def partsOf (g : Generator) (r : ProgramRequest) : List KeyPart :=
  (r.effective g.context.settings).parts g.context.boneLimits

/-- What happens to a generator: it is asked for a request with some parts, its context is edited, a
palette is seen, or its programs are dropped. -/
inductive Step (asked : List KeyPart → Prop) (g : Generator) : Generator → Prop where
  | ask {g' : Generator} {r : ProgramRequest} {p : Program} :
      asked (g.partsOf r) → g.programFor r = .ok (p, g') → Step asked g g'
  | edit (f : Context → Context) : Step asked g (g.modifyContext f)
  | see (limits : BoneLimits) : Step asked g (g.withBoneLimits limits)
  | clear : Step asked g g.clear

/-- A generator makes a program for itself, or has it already. -/
lemma identity_of_programFor {g g' : Generator} {r : ProgramRequest} {p : Program}
    (h : g.programFor r = .ok (p, g')) : g'.identity = g.identity := by
  rcases of_programFor h with ⟨-, rfl⟩ | ⟨-, stages, -, -, rfl⟩
  · rfl
  · rfl

variable {asked : List KeyPart → Prop} {g g' : Generator} {r : ProgramRequest} {p q : Program}

/-- Whatever happens to a generator, it stays the same one. -/
lemma Step.identity_eq (h : g.Step asked g') : g'.identity = g.identity := by
  cases h with
  | ask _ hp => exact identity_of_programFor hp
  | edit f => rfl
  | see limits => rfl
  | clear => rfl

/-- A chosen program is among those that are kept. -/
lemma mem_cache_of_programFor (h : g.programFor r = .ok (p, g')) : p ∈ g'.cache :=
  List.mem_of_find?_eq_some (find?_of_programFor h)

/-! ## Numbers -/

/-- The generator tells a program that it made from all others: the number of the program was given
out, and no other program is kept under it. -/
def Recalls (g : Generator) (q : Program) : Prop :=
  q.maker = g.identity → q.serial < g.made ∧ ∀ p ∈ g.cache, p.serial = q.serial → p = q

/-- What a generator keeps it has made, and it tells each of these programs from all others. -/
structure Numbered (g : Generator) : Prop where
  maker_eq : ∀ p ∈ g.cache, p.maker = g.identity
  recalls : ∀ p ∈ g.cache, g.Recalls p

/-- A new program gets a number that no program had before. -/
lemma Recalls.insert (h : g.Recalls q) (key : ProgramKey) (stages : CompiledProgram) :
    (g.insert key stages).2.Recalls q := by
  intro hmaker
  obtain ⟨hlt, hunique⟩ := h hmaker
  refine ⟨hlt.trans (Nat.lt_succ_self g.made), fun p hp hserial => ?_⟩
  obtain rfl | hp := List.mem_cons.1 hp
  · exact absurd hserial hlt.ne'
  · exact hunique p hp hserial

/-- A generator that keeps no more than before, and has given out the same numbers. -/
lemma Recalls.of_subset (h : g.Recalls q) (hidentity : g'.identity = g.identity)
    (hmade : g'.made = g.made) (hcache : g'.cache ⊆ g.cache) : g'.Recalls q := by
  intro hmaker
  obtain ⟨hlt, hunique⟩ := h (hmaker.trans hidentity)
  exact ⟨hlt.trans_eq hmade.symm, fun p hp => hunique p (hcache hp)⟩

/-- A choice between programs does not confuse them. -/
lemma Recalls.of_programFor (h : g.Recalls q) (hp : g.programFor r = .ok (p, g')) :
    g'.Recalls q := by
  rcases Generator.of_programFor hp with ⟨-, rfl⟩ | ⟨-, stages, -, -, rfl⟩
  · exact h
  · exact h.insert _ stages

/-- Whatever happens to a generator, it does not confuse its programs. -/
lemma Recalls.step (h : g.Recalls q) (hstep : g.Step asked g') : g'.Recalls q := by
  cases hstep with
  | ask _ hp => exact h.of_programFor hp
  | edit f => exact h.of_subset rfl rfl (List.nil_subset _)
  | see limits => exact h.of_subset rfl rfl (List.Subset.refl _)
  | clear => exact h.of_subset rfl rfl (List.nil_subset _)

/-- A generator that has made nothing yet. -/
lemma numbered_of_cache_eq_nil (h : g.cache = []) : g.Numbered where
  maker_eq p hp := by simp [h] at hp
  recalls p hp := by simp [h] at hp

/-- The first program of a generator has the first number. -/
lemma serial_of_programFor (h : g.cache = []) (hp : g.programFor r = .ok (p, g')) :
    p.serial = g.made ∧ p.maker = g.identity := by
  rcases of_programFor hp with ⟨hkept, -⟩ | ⟨-, stages, -, rfl, -⟩
  · rw [find?, h] at hkept
    cases hkept
  · exact ⟨rfl, rfl⟩

/-- A new program is told from the others. -/
lemma Numbered.insert (h : g.Numbered) (key : ProgramKey) (stages : CompiledProgram) :
    (g.insert key stages).2.Numbered where
  maker_eq p hp := by
    obtain rfl | hp := List.mem_cons.1 hp
    · rfl
    · exact h.maker_eq p hp
  recalls p hp := by
    obtain rfl | hp := List.mem_cons.1 hp
    · refine fun _ => ⟨Nat.lt_succ_self g.made, fun q hq hserial => ?_⟩
      obtain rfl | hq := List.mem_cons.1 hq
      · rfl
      · exact absurd hserial (h.recalls q hq (h.maker_eq q hq)).1.ne
    · exact (h.recalls p hp).insert key stages

/-- Whatever happens to a generator, it tells its programs from each other. -/
lemma Numbered.step (h : g.Numbered) (hstep : g.Step asked g') : g'.Numbered := by
  cases hstep with
  | ask _ hp =>
    rcases of_programFor hp with ⟨-, rfl⟩ | ⟨-, stages, -, -, rfl⟩
    · exact h
    · exact h.insert _ stages
  | edit f => exact numbered_of_cache_eq_nil rfl
  | see limits => exact ⟨h.maker_eq, h.recalls⟩
  | clear => exact numbered_of_cache_eq_nil rfl

/-- A chosen program was made by the generator that chose it, which tells it from all others. -/
lemma Numbered.of_programFor (h : g.Numbered) (hp : g.programFor r = .ok (p, g')) :
    p.maker = g.identity ∧ g'.Recalls p := by
  have hstep : g.Step (fun _ => True) g' := .ask trivial hp
  have hnumbered : g'.Numbered := h.step hstep
  have hmem : p ∈ g'.cache := mem_cache_of_programFor hp
  exact ⟨(hnumbered.maker_eq p hmem).trans (identity_of_programFor hp), hnumbered.recalls p hmem⟩

/-- **A program is known by its maker and its number.** -/
theorem Numbered.eq_of_isSame (h : g.Numbered) (hq : g.Recalls q)
    (hp : g.programFor r = .ok (p, g')) (hsame : q.isSame p) : q = p := by
  obtain ⟨hmaker, hserial⟩ := Bool.and_eq_true_iff.1 hsame
  have hown : q.maker = g'.identity :=
    (eq_of_beq hmaker).trans ((h.of_programFor hp).1.trans (identity_of_programFor hp).symm)
  obtain ⟨-, hunique⟩ := hq.of_programFor hp hown
  exact (hunique p (mem_cache_of_programFor hp) (eq_of_beq hserial).symm).symm

end Generator

end SceneShading
