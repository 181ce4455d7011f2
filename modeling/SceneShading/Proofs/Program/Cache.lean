import Mathlib.Tactic
import SceneShading.Proofs.Program.Bare
import SceneShading.Proofs.Program.Complete
import SceneShading.Proofs.Program.Serials

/-!
# The programs that a generator keeps

A generator compiles a request once and answers it from its cache from then on, while bone palettes
grow, the context is edited and the cache is cleared. Nobody can tell: whatever happened before, the
program of a request is the one that a new generator with the same context would make of it
(`Generator.Serving.transparent`).

The cache is honest (`Generator.IsHonest`): a program in it was made for some request under some bone
limits, the rest of the context being as it is now. A request that finds it has the same key, hence
the same digits, the same parts and the same program. The first step is the usual assumption on
hashes. The second one needs that no faces are culled: the digit of face culling is that of the first
texture unit, and two requests that are told apart by nothing else share a program
(`Generator.programFor_textured`).
-/

namespace SceneShading

namespace Generator

/-- The generators that are served: a new one, and what becomes of it step by step, requests being
asked with some parts. -/
inductive Serving (asked : List KeyPart → Prop) : Generator → Prop where
  | start (ctx : Context) (identity : Nat) : Serving asked { context := ctx, identity }
  | step {g g' : Generator} : Serving asked g → g.Step asked g' → Serving asked g'

/-- Keys tell requests apart: different digits have different keys, and faces are not culled. -/
structure TellsApart (asked : List KeyPart → Prop) : Prop where
  digits_eq : ∀ parts parts', asked parts → asked parts' →
    ProgramKey.ofParts parts = .ofParts parts' →
    parts.flatMap KeyPart.digits = parts'.flatMap KeyPart.digits
  shaped : ∀ parts, asked parts → ∀ p ∈ parts, p.IsShaped

/-- Parts with the same key are the same. -/
lemma TellsApart.parts_eq {asked : List KeyPart → Prop} (h : TellsApart asked)
    {parts parts' : List KeyPart} (hparts : asked parts) (hparts' : asked parts')
    (hkey : ProgramKey.ofParts parts = .ofParts parts') : parts = parts' :=
  KeyPart.digits_injective (h.shaped parts hparts) (h.shaped parts' hparts')
    (h.digits_eq parts parts' hparts hparts' hkey)

/-- Every program that is kept was made for a request that was asked for: by the context of the
generator, but for the bone limits. -/
def IsHonest (asked : List KeyPart → Prop) (g : Generator) : Prop :=
  ∀ p ∈ g.cache, ∃ (limits : BoneLimits) (r : ProgramRequest),
    asked (r.parts limits) ∧ p.key = r.key limits ∧
      (g.context.withBoneLimits limits).compileProgram r.roles r.description = .ok p.stages

variable {asked : List KeyPart → Prop}

/-- A program that is made and kept is honest. -/
lemma IsHonest.ask {g g' : Generator} (h : g.IsHonest asked) {r : ProgramRequest} {p : Program}
    (hr : asked (g.partsOf r)) (hp : g.programFor r = .ok (p, g')) : g'.IsHonest asked := by
  rcases of_programFor hp with ⟨-, rfl⟩ | ⟨-, stages, hstages, -, rfl⟩
  · exact h
  · intro q hq
    obtain rfl | hq := List.mem_cons.1 hq
    · exact ⟨g.context.boneLimits, r.effective g.context.settings, hr, rfl, hstages⟩
    · exact h q hq

/-- Whatever happens to an honest generator, it stays honest. -/
lemma IsHonest.step {g g' : Generator} (h : g.IsHonest asked) (hstep : g.Step asked g') :
    g'.IsHonest asked := by
  cases hstep with
  | ask hr hp => exact h.ask hr hp
  | edit f => intro p hp; cases hp
  | see limits => exact h
  | clear => intro p hp; cases hp

/-- The generators that are served are honest. -/
lemma Serving.isHonest {g : Generator} (h : g.Serving asked) : g.IsHonest asked := by
  induction h with
  | start ctx identity => intro p hp; cases hp
  | step _ hstep ih => exact ih.step hstep

/-- The generators that are served tell their programs apart. -/
lemma Serving.numbered {g : Generator} (h : g.Serving asked) : g.Numbered := by
  induction h with
  | start ctx identity => exact numbered_of_cache_eq_nil rfl
  | step _ hstep ih => exact ih.step hstep

/-- A kept program has the stages that the request would be compiled to. -/
lemma IsHonest.compile_of_find? {g : Generator} (h : g.IsHonest asked) (htell : TellsApart asked)
    {r : ProgramRequest} (hr : asked (g.partsOf r)) {p : Program}
    (hkept : g.find? (g.keyOf r) = some p) :
    p.key = g.keyOf r ∧ g.compile (r.effective g.context.settings) = .ok p.stages := by
  have hmem : p ∈ g.cache := List.mem_of_find?_eq_some hkept
  have hkey : p.key = g.keyOf r :=
    eq_of_beq (List.find?_some (p := fun q : Program => q.key == g.keyOf r) hkept)
  obtain ⟨limits, r', hr', hkey', hstages⟩ := h p hmem
  have hparts : r'.parts limits = g.partsOf r :=
    htell.parts_eq hr' hr (hkey'.symm.trans hkey)
  refine ⟨hkey, ?_⟩
  rw [compile, ← ProgramRequest.compile_congr hparts, hstages]

/-- What a new generator makes of a request. -/
lemma programFor_ofContext (ctx : Context) (r : ProgramRequest) :
    (ofContext ctx).programFor r =
      ((ofContext ctx).compile (r.effective ctx.settings)).map
        ((ofContext ctx).insert ((ofContext ctx).keyOf r)) := by
  rw [programFor_eq_elim]
  rfl

/-- **The cache is transparent.** Whatever a generator was asked for before, however its context was
edited and whatever palettes were seen, the program of a request has the key and the stages that a
new generator with the same context would give it, and fails where that one would fail. -/
theorem Serving.transparent {g : Generator} (h : g.Serving asked) (htell : TellsApart asked)
    {r : ProgramRequest} (hr : asked (g.partsOf r)) :
    (g.programFor r).map (fun a => (a.1.key, a.1.stages)) =
      ((ofContext g.context).programFor r).map fun a => (a.1.key, a.1.stages) := by
  have hcompile : (ofContext g.context).compile (r.effective g.context.settings) =
      g.compile (r.effective g.context.settings) := rfl
  rw [programFor_ofContext, programFor_eq_elim, hcompile]
  cases hkept : g.find? (g.keyOf r) with
  | none => cases g.compile (r.effective g.context.settings) <;> rfl
  | some p =>
    obtain ⟨hkey, hstages⟩ := h.isHonest.compile_of_find? htell hr hkept
    rw [hstages]
    change Except.ok (p.key, p.stages) = Except.ok (g.keyOf r, p.stages)
    rw [hkey]

/-- A request without description is answered under the built-in library. -/
lemma exists_programFor (g : Generator) {r : ProgramRequest} (hr : r.description = none) :
    ∃ p g', g.programFor r = .ok (p, g') := by
  rw [programFor_eq_elim]
  cases g.find? (g.keyOf r) with
  | some p => exact ⟨p, g, rfl⟩
  | none =>
    let roles := (r.effective g.context.settings).roles
    have hvertex := (roles.sound_vertexGraph g.context.boneLimits roles.sound_fragmentGraph.1).1
    rw [Option.elim_none, compile,
      ProgramRequest.description_effective_eq_none g.context.settings hr,
      Context.compileProgram_of_fault _ _ hvertex.fault]
    exact ⟨_, _, rfl⟩

/-- A material. -/
def plain : ProgramRequest := { attributes := [.material {}] }

/-- A material, and a texture in the first unit. -/
def textured : ProgramRequest := { attributes := [.material {}], units := [[.texture {}]] }

/-- The parts of a material and a textured material that a new generator is asked for. -/
def surfaceParts (parts : List KeyPart) : Prop :=
  parts = (ofContext {}).partsOf plain ∨ parts = (ofContext {}).partsOf textured

/-- The texture makes the key longer, and no faces are culled. -/
lemma tellsApart_surfaceParts : TellsApart surfaceParts where
  digits_eq parts parts' hparts hparts' hkey := by
    have hlength : (ProgramKey.ofParts ((ofContext {}).partsOf plain)).digits.length ≠
        (ProgramKey.ofParts ((ofContext {}).partsOf textured)).digits.length := by decide
    obtain rfl | rfl := hparts
    · obtain rfl | rfl := hparts'
      · rfl
      · exact absurd (congrArg (·.digits.length) hkey) hlength
    · obtain rfl | rfl := hparts'
      · exact absurd (congrArg (·.digits.length) hkey) hlength.symm
      · rfl
  shaped parts hparts part hpart := by
    have hmaterial : (KeyPart.attribute (Attribute.structureOf {} (.material {}))).IsShaped := by
      rw [KeyPart.IsShaped]
      decide
    have htexture : (KeyPart.unitAttribute 0 (Attribute.structureOf {} (.texture {}))).IsShaped := by
      rw [KeyPart.IsShaped]
      decide
    obtain rfl | rfl := hparts
    · obtain rfl := List.mem_singleton.1 hpart
      exact hmaterial
    · obtain rfl | hpart := List.mem_cons.1 hpart
      · exact hmaterial
      · obtain rfl := List.mem_singleton.1 hpart
        exact htexture

/-- A material and a textured material are asked for and get programs of different keys. The material
is asked for again when another palette was seen. -/
theorem Serving.transparent_material :
    let limits := BoneLimits.observe {} 4
    ∃ p g q g', (ofContext {}).programFor plain = .ok (p, g) ∧
      g.programFor textured = .ok (q, g') ∧ p.key ≠ q.key ∧
      (g'.withBoneLimits limits).find? (g'.keyOf plain) = some p ∧
      ((g'.withBoneLimits limits).programFor plain).map (fun a => (a.1.key, a.1.stages)) =
        ((ofContext (g'.withBoneLimits limits).context).programFor plain).map
          fun a => (a.1.key, a.1.stages) := by
  intro limits
  obtain ⟨p, g, hp⟩ := (ofContext {}).exists_programFor (r := plain) rfl
  have hcontext : g.context = {} := context_of_programFor hp
  obtain ⟨q, g', hq⟩ := g.exists_programFor (r := textured) rfl
  have hcontext' : g'.context = {} := (context_of_programFor hq).trans hcontext
  have hserving : (g'.withBoneLimits limits).Serving surfaceParts := by
    have hstart : (ofContext {}).Serving surfaceParts := .start {} 0
    have hasked : surfaceParts (g.partsOf textured) := by
      rw [partsOf, hcontext]
      exact .inr rfl
    exact ((hstart.step (.ask (.inl rfl) hp)).step (.ask hasked hq)).step (.see limits)
  have hasked : surfaceParts ((g'.withBoneLimits limits).partsOf plain) := by
    rw [partsOf, withBoneLimits, hcontext']
    exact .inl rfl
  refine ⟨p, g, q, g', hp, hq, fun hkey => ?_, ?_,
    hserving.transparent tellsApart_surfaceParts hasked⟩
  · rw [key_of_programFor hp, key_of_programFor hq, keyOf, keyOf, hcontext] at hkey
    exact absurd (congrArg (·.digits.length) hkey) (by decide)
  · have hkept : g'.find? ((ofContext {}).keyOf plain) = some p :=
      find?_stays hq (find?_of_programFor hp)
    rw [keyOf, hcontext']
    exact hkept

/-! ## Face culling -/

/-- A material, face culling and a texture outside the texture units, where it plays no role. -/
def culled : ProgramRequest :=
  { attributes := [.material {}, .cullFace {}, .texture {}] }

/-- A textured surface gets the program without texture that was made before, if face culling takes
part in generation. -/
theorem programFor_textured {g g' : Generator} {p : Program}
    (haccepts : [Kind.material, .cullFace, .texture].all g.context.settings.accepts)
    (hp : g.programFor culled = .ok (p, g')) :
    g'.programFor textured = .ok (p, g') ∧ culled.roles.textures = [] ∧
      textured.roles.textures = [(0, {})] := by
  refine ⟨?_, rfl, rfl⟩
  simp only [List.all_cons, List.all_nil, Bool.and_eq_true, Bool.and_true] at haccepts
  obtain ⟨hmaterial, hculling, htexture⟩ := haccepts
  have hcontext : g'.context = g.context := context_of_programFor hp
  have hculled : culled.effective g.context.settings = culled := by
    simp [culled, ProgramRequest.effective, ProgramRequest.narrowed, ProgramRequest.accepted,
      ProgramRequest.castsShadow, Attribute.kind, Attribute.isEnabled, hmaterial, hculling,
      htexture]
  have htextured : textured.effective g.context.settings = textured := by
    simp [textured, ProgramRequest.effective, ProgramRequest.narrowed, ProgramRequest.accepted,
      ProgramRequest.castsShadow, Attribute.kind, Attribute.isEnabled, hmaterial, htexture]
  have hkey : g'.keyOf textured = g.keyOf culled := by
    rw [keyOf, keyOf, hcontext, hculled, htextured]
    rfl
  rw [programFor_eq_elim, hkey, find?_of_programFor hp]
  rfl

end Generator

end SceneShading
