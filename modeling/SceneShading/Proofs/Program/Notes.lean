import SceneShading.Proofs.Codegen.Notes
import SceneShading.Proofs.Program.Complete
import SceneShading.Proofs.Program.Typing

/-!
# Notes in generated programs

The name of a variable of a generated graph is a word with a number in some places (`Variable.Fits`), and
its type is a type of data or of a sampler (`Variable.Named`). Neither holds a character that separates
words, and no name is a word of the language (`isTerm_of_letters`). So all operands are spelled
(`Graph.Sound.spelled`), and the switch for notes makes no difference to the code of a generated program
(`Context.compileProgram_sameCode`).
-/

namespace SceneShading

open Source

/-! ## Names and types -/

/-- The characters between the first digit and the last letter are no blanks. -/
lemma not_isSeparator_of_toNat {c : Char} (hrange : 48 ≤ c.toNat ∧ c.toNat ≤ 122) (hc : c ≠ ';') :
    ¬isSeparator c = true := by
  rw [isSeparator, Bool.or_eq_true_iff, beq_iff_eq, not_or]
  refine ⟨fun hblank => ?_, hc⟩
  obtain ⟨range, hmem, hbounds⟩ := List.any_eq_true.1 hblank
  rw [Bool.and_eq_true_iff, decide_eq_true_eq, decide_eq_true_eq] at hbounds
  have houtside : ∀ range ∈ Text.blankRanges, range.2 < 48 ∨ 122 < range.1 := by decide
  rcases houtside range hmem with hlow | hhigh <;> omega

/-- A digit separates no words. -/
lemma not_isSeparator_of_isDigit {c : Char} (h : c.isDigit = true) : ¬isSeparator c = true := by
  have hrange : 48 ≤ c.toNat ∧ c.toNat ≤ 57 := by
    simpa [Char.isDigit, UInt32.le_iff_toNat_le] using h
  refine not_isSeparator_of_toNat ⟨hrange.1, by omega⟩ ?_
  rintro rfl
  cases h

/-- A character of a word separates no words. -/
lemma not_isSeparator_of_isLetter {c : Char} (h : isLetter c = true) : ¬isSeparator c = true := by
  have hrange := toNat_of_isLetter h
  refine not_isSeparator_of_toNat (by omega) ?_
  rintro rfl
  cases h

/-- A name is a term if its letters are one. -/
lemma isTerm_of_letters {name word : String} (hletters : letters name = word.toList)
    (hword : IsTerm word ∧ word ≠ "float") : IsTerm name ∧ name ≠ "float" := by
  obtain ⟨⟨hne, hsolid, hprecision⟩, hfloat⟩ := hword
  have hother : ∀ text : String, letters text = text.toList → word ≠ text → name ≠ text := by
    rintro _ htext hne rfl
    exact hne (String.toList_injective (hletters.symm.trans htext))
  refine ⟨⟨hother _ (by decide) hne, fun c hc => ?_, hother _ (by decide) hprecision⟩,
    hother _ (by decide) hfloat⟩
  by_cases hdigit : c.isDigit = true
  · exact not_isSeparator_of_isDigit hdigit
  · refine hsolid c (hletters ▸ List.mem_filter.2 ⟨hc, ?_⟩)
    rw [Bool.eq_false_of_not_eq_true hdigit, Bool.not_false]

/-- The words are none of the texts that are not terms, and they stand for types of data. -/
lemma vocabulary_terms : ∀ e ∈ vocabulary,
    (e.1 ≠ "" ∧ e.1 ≠ "precision" ∧ e.1 ≠ "float") ∧ e.2.2 ∈ dataTypes := by
  decide +kernel

/-- A word is a term. -/
lemma isTerm_of_mem_words {cls : VariableClass} {e : String × String} (h : e ∈ words cls) :
    IsTerm e.1 ∧ e.1 ≠ "float" := by
  obtain ⟨⟨hne, hprecision, hfloat⟩, -⟩ := vocabulary_terms _ (mem_vocabulary h)
  exact ⟨⟨hne, fun c hc => not_isSeparator_of_isLetter (isLetter_of_mem_words h c hc), hprecision⟩,
    hfloat⟩

/-- Types of data are terms. -/
lemma isTerm_of_mem_dataTypes : ∀ type ∈ dataTypes, IsTerm type := by
  decide

namespace Variable

variable {v : Variable}

/-- The name of a variable that fits is a term. -/
lemma Fits.isTerm_name {size : Nat} (h : v.Fits size) : IsTerm v.name ∧ v.name ≠ "float" := by
  rcases h.named with ⟨word, hmem, hletters⟩ | ⟨-, hletters⟩ | ⟨-, k, -, hname⟩
  · exact isTerm_of_letters hletters (isTerm_of_mem_words hmem)
  · exact isTerm_of_letters hletters (by decide)
  · rw [hname]
    exact isTerm_of_letters (letters_temporary k) (by decide)

/-- The type of a variable that is named after it is a term. -/
lemma Named.isTerm_type {samplerType : Nat → String} (h : v.Named samplerType)
    (hsamplers : ∀ unit, IsTerm (samplerType unit)) : IsTerm v.type := by
  rcases h with ⟨word, hmem, -⟩ | ⟨unit, -, -, htype⟩ | ⟨-, htype⟩
  · exact isTerm_of_mem_dataTypes _ (vocabulary_terms _ (mem_vocabulary hmem)).2
  · rw [htype]
    exact hsamplers unit
  · exact isTerm_of_mem_dataTypes _ htype

end Variable

/-- The operands of a sound graph that is well typed are spelled. -/
lemma Graph.Sound.spelled {g : Graph} {roots : List NodeId} (h : g.Sound roots)
    {samplerType : Nat → String} (htyped : g.Typed samplerType)
    (hsamplers : ∀ unit, IsTerm (samplerType unit)) : g.Spelled := by
  intro id o ho
  cases hv : g.declared? id with
  | some v =>
    rw [operand?_of_declared? hv] at ho
    cases ho
    obtain ⟨hname, hfloat⟩ := (h.fits id v hv).isTerm_name
    refine ⟨hname, hfloat, fun type htype => ?_⟩
    cases htype
    exact (htyped.named_of_declared? hv).isTerm_type hsamplers
  | none =>
    obtain ⟨m, hm, hoperand⟩ := Option.bind_eq_some_iff.1 ho
    rw [declared?, hm, Option.bind_some] at hv
    generalize m.kind = kind at hoperand hv
    cases kind with
    | var v => cases hv
    | output b =>
      cases hoperand
      cases b <;> exact ⟨by decide, by decide, by decide⟩
    | _ => cases hoperand

/-- The sampler of a texture unit has a type of one word. -/
lemma Roles.isTerm_samplerType (roles : Roles) (unit : Nat) : IsTerm (roles.samplerType unit) := by
  unfold samplerType
  split <;> decide

namespace Context

/-- **Notes make no difference to the code.** Whatever the attributes and texture units, two settings that
differ in the switch for notes only give programs whose stages have the same problems and, blank lines and
comments apart, the same lines. The library may have any files, as long as its skeleton does not repeat
over the body. -/
theorem compileProgram_sameCode (settings : Settings) (debug debug' : Bool) (catalogue : Catalogue)
    (library : Library) (hskeleton : library.KeepsBody) (limits : BoneLimits)
    (attributes : List Attribute) (units : List (List Attribute)) :
    let roles := Roles.ofAttributes attributes units
    let context (debugNodes : Bool) : Context :=
      { settings := { settings with debugNodes }, catalogue, library, boneLimits := limits }
    ∃ program program' : CompiledProgram,
      (context debug).compileProgram roles none = .ok program ∧
        (context debug').compileProgram roles none = .ok program' ∧
          program.fragment.SameCode program'.fragment ∧ program.vertex.SameCode program'.vertex := by
  intro roles context
  have hfragment : roles.fragmentGraph.graph.Sound roles.fragmentGraph.roots :=
    roles.sound_fragmentGraph.1.mono (List.nil_subset _)
  have hvertex := (roles.sound_vertexGraph limits roles.sound_fragmentGraph.1).1
  have htyped : (roles.vertexGraph limits roles.fragmentGraph.graph).graph.Typed roles.samplerType :=
    roles.typed_vertexGraph limits roles.sound_fragmentGraph.1
  have hswitch : ∀ {g : Graph} {roots : List NodeId}, g.Sound roots → g.Typed roles.samplerType →
      ((context debug).compile g roots).SameCode ((context debug').compile g roots) := by
    intro g roots hsound htyped
    have hsame := hsound.sameCode_compileStage (hsound.spelled htyped roles.isTerm_samplerType)
      hskeleton settings
    cases debug <;> cases debug'
    · exact .refl _
    · exact hsame.symm
    · exact hsame
    · exact .refl _
  exact ⟨_, _, compileProgram_of_fault (context debug) roles hvertex.fault,
    compileProgram_of_fault (context debug') roles hvertex.fault,
    hswitch hfragment roles.typed_fragmentGraph, hswitch hvertex htyped⟩

/-- A lit surface with notes and without, under the built-in library. -/
theorem compileProgram_sameCode_lit :
    let roles := Roles.ofAttributes [.material {}, .light { number := 0 }] []
    let context (debugNodes : Bool) : Context := { settings := { debugNodes } }
    Library.KeepsBody {} ∧ ∃ program program' : CompiledProgram,
      (context true).compileProgram roles none = .ok program ∧
        (context false).compileProgram roles none = .ok program' ∧
          program.fragment.SameCode program'.fragment ∧ program.vertex.SameCode program'.vertex :=
  ⟨Library.keepsBody_builtin, compileProgram_sameCode {} true false .builtin {}
    Library.keepsBody_builtin {} [.material {}, .light { number := 0 }] []⟩

end Context

end SceneShading
