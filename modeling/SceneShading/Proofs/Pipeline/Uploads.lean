import Mathlib.Tactic
import SceneShading.Proofs.Pipeline.Device
import SceneShading.Proofs.Program.Feeding
import SceneShading.Proofs.Program.Interface
import SceneShading.Proofs.Program.Ownership

/-!
# Uniforms that are uploaded

When a state is applied, a program is bound, and the uniforms of all active attributes are uploaded with
those that sets and defaults give values to. This is enough for the program
(`Session.Reachable.apply_supplies`): each uniform that one of its stages declares is uploaded by then, and
each uniform of an attribute with a value of the declared type. Only the matrices and the parameters of a
depth pass are left to the caller.

The program may have been made long before, for another request. What it reads belongs to attributes that
are also there in the request of the state (`ProgramRequest.exists_has_of_key_eq`), and what is in the
request of a state is active (`PipelineState.uniform_mem_of_has`). The switch of the vertex colors belongs
to no attribute; every state has it from the start (`Session.Reachable.hasColorSwitch`).
-/

namespace SceneShading

/-! ## Active attributes -/

namespace ProgramRequest

variable {r : ProgramRequest} {settings : Settings} {unit : Nat} {a : Attribute}

/-- What takes part in generation is enabled. -/
lemma mem_accepted {attributes : List Attribute} (h : a ∈ accepted settings attributes) :
    a ∈ attributes ∧ a.isEnabled = true := by
  obtain ⟨hmem, haccepted⟩ := List.mem_filter.1 h
  exact ⟨hmem, (Bool.and_eq_true_iff.1 haccepted).2⟩

/-- Outside the units, attributes only get lost when a request is narrowed to what matters. -/
lemma mem_of_mem_effective (h : a ∈ (r.effective settings).attributes) :
    a ∈ r.attributes ∧ a.isEnabled = true := by
  rw [effective, narrowed] at h
  split at h
  · exact mem_accepted (List.mem_filter.1 h).1
  · exact mem_accepted h

/-- In the units, attributes only get lost when a request is narrowed to what matters. -/
lemma mem_placed_of_effective (h : (unit, a) ∈ Roles.placed (r.effective settings).units) :
    (unit, a) ∈ Roles.placed r.units ∧ a.isEnabled = true := by
  have hunits : (unit, a) ∈ Roles.placed (r.units.map (accepted settings)) := by
    rw [effective, narrowed] at h
    split at h
    · cases h
    · exact h
  obtain ⟨attributes, hunit, ha⟩ := Roles.mem_placed.1 hunits
  rw [List.getElem?_map] at hunit
  obtain ⟨active, hactive, rfl⟩ := Option.map_eq_some_iff.1 hunit
  obtain ⟨hmem, henabled⟩ := mem_accepted ha
  exact ⟨Roles.mem_placed.2 ⟨active, hactive, hmem⟩, henabled⟩

/-- What matters in a request is in the request, and it is enabled. -/
lemma Has.of_effective (h : (r.effective settings).Has unit a) :
    r.Has unit a ∧ a.isEnabled = true := by
  cases h with
  | outside h => exact (mem_of_mem_effective h).imp_left .outside
  | inside h => exact (mem_placed_of_effective h).imp_left .inside

lemma TexturesInUnits.effective (h : r.TexturesInUnits) (settings : Settings) :
    (r.effective settings).TexturesInUnits :=
  fun a ha => h a (mem_of_mem_effective ha).1

end ProgramRequest

namespace PipelineState

variable {s : PipelineState} {name : String} {value : UniformValue}

/-- The uniforms of the attributes in the request of a state are uploaded. -/
lemma uniform_mem_of_has {unit : Nat} {a : Attribute} (h : s.request.Has unit a)
    (hvalue : (name, value) ∈ a.uniformValues unit) : .uniform name value ∈ s.uniformEvents := by
  have hevent : .uniform name value ∈ (a.uniformValues unit).map fun u => Event.uniform u.1 u.2 :=
    List.mem_map.2 ⟨_, hvalue, rfl⟩
  rw [uniformEvents, List.mem_append, List.mem_append]
  cases h with
  | outside h => exact .inl (.inl (List.mem_flatMap.2 ⟨a, h, hevent⟩))
  | inside h =>
    obtain ⟨active, hunit, ha⟩ := Roles.mem_placed.1 h
    have hu : (active, unit) ∈ s.activeUnits.zipIdx := List.mem_zipIdx_iff_getElem?.2 hunit
    exact .inl (.inr (List.mem_flatMap.2 ⟨_, hu, List.mem_flatMap.2 ⟨a, ha, hevent⟩⟩))

/-- A uniform with a slot is uploaded. -/
lemma exists_uniform_mem (h : name ∈ s.uniforms.keys) :
    ∃ value, .uniform name value ∈ s.uniformEvents := by
  obtain ⟨e, he, rfl⟩ := List.mem_map.1 h
  exact ⟨e.2.effective, List.mem_append_right _ (List.mem_map.2 ⟨e, he, rfl⟩)⟩

/-! ### Slots of uniforms -/

lemma mem_keys_pushUniforms (set : Table String (UniformValue × Mode))
    {slots : Table String UniformSlot} (h : name ∈ slots.keys) :
    name ∈ (pushUniforms set slots).keys := by
  rw [pushUniforms]
  generalize set.entries = entries
  induction entries generalizing slots with
  | nil => exact h
  | cons e entries ih =>
    refine ih ?_
    rw [Table.keys_upsert]
    split
    · exact h
    · exact List.mem_append_left _ h

lemma mem_keys_popUniforms {α : Type} (set : Table String α) {slots : Table String UniformSlot}
    (h : name ∈ slots.keys) : name ∈ (popUniforms set slots).keys := by
  rw [popUniforms]
  generalize set.keys = keys
  induction keys generalizing slots with
  | nil => exact h
  | cons key keys ih =>
    refine ih ?_
    rwa [Table.keys_modify]

end PipelineState

namespace AttributeSlot

/-- The active value of a slot is on its stack. -/
lemma mem_entries_of_active? {v : AttributeSlot} {held : HeldAttribute}
    (h : v.active? = some held) : ∃ e ∈ v.stack.entries, e.1 = held := by
  rw [active?, ModeStack.top?] at h
  cases hentries : v.stack.entries with
  | nil =>
    rw [hentries] at h
    cases h
  | cons e entries =>
    simp only [hentries, List.head?_cons] at h
    split at h
    · cases h
    · exact ⟨e, List.mem_cons_self, Option.some.inj h⟩

end AttributeSlot

namespace Session

variable {sets : SharedSets} {s s' : Session}

/-- Steps leave the slots of uniforms. -/
lemma Step.mem_keys_uniforms (h : Step sets s s') {name : String}
    (hname : name ∈ s.state.uniforms.keys) : name ∈ s'.state.uniforms.keys := by
  cases h with
  | push identity => exact PipelineState.mem_keys_pushUniforms _ hname
  | pop identity => exact PipelineState.mem_keys_popUniforms _ hname
  | setAttributeDefault a =>
    rw [PipelineState.setAttributeDefault]
    split <;> exact hname
  | setUnitDefault unit a => exact hname
  | setUniformDefault other value =>
    rw [PipelineState.setUniformDefault, Table.keys_upsert]
    split
    · exact hname
    · exact List.mem_append_left _ hname
  | work i hwork => exact hname
  | apply i happ =>
    obtain ⟨p, -, hstate, -⟩ := PipelineState.of_apply happ
    rw [hstate]
    exact hname

/-- Every state has the switch of the vertex colors. -/
lemma Reachable.hasColorSwitch (h : s.Reachable sets) : colorSwitch ∈ s.state.uniforms.keys := by
  induction h with
  | start contexts => exact List.mem_singleton_self _
  | step _ hstep ih => exact hstep.mem_keys_uniforms ih

/-- The request of a state has its textures in units, since the sets do. -/
lemma Reachable.texturesInUnits (h : s.Reachable sets) : s.state.request.TexturesInUnits := by
  intro a ha
  change a ∈ PipelineState.activeValues _ s.state.attributes at ha
  rw [PipelineState.activeValues_eq_map] at ha
  obtain ⟨⟨key, _⟩, hentry, rfl⟩ := List.mem_map.1 ha
  obtain ⟨held, hheld, rfl⟩ := Option.map_eq_some_iff.1 (PipelineState.mem_activeEntries.1 hentry)
  obtain ⟨slot, hslot, hactive⟩ := Option.bind_eq_some_iff.1 hheld
  obtain ⟨e, he, rfl⟩ := AttributeSlot.mem_entries_of_active? hactive
  obtain ⟨identity, -, hmade⟩ := (h.inStep.attributes.slot hslot).entries e he
  exact (sets.fits_of_madeFor? hmade).2

end Session

/-! ## Supplied programs -/

/-- The uniforms that a stage declares: those among the variables at file scope. -/
def Graph.uniforms (g : Graph) (roots : List NodeId) : List Variable :=
  (g.fileVariables roots).filter fun v => v.cls = .uniform ∨ v.cls = .sampler

/-- A uniform is uploaded. The upload has the declared type, unless the uniform is the switch of the
vertex colors, which belongs to no attribute. -/
def Supplies (events : List Event) (v : Variable) : Prop :=
  ∃ value, .uniform v.name value ∈ events ∧
    (v.name ≠ colorSwitch → value.signature v.name = v.signature)

/-- The program is compiled from the graphs, and all uniforms that these declare are supplied, but for
those that the caller supplies. -/
structure CompiledProgram.Supplied (ctx : Context) (fragment vertex : RootedGraph)
    (events : List Event) (program : CompiledProgram) : Prop where
  compiled : program = ⟨ctx.compile vertex.graph vertex.roots,
    ctx.compile fragment.graph fragment.roots⟩
  shows : ctx.library = {} → program.fragment.Shows ctx.settings fragment.graph fragment.roots ∧
    program.vertex.Shows ctx.settings vertex.graph vertex.roots
  supplied : ∀ v ∈ fragment.graph.uniforms fragment.roots ++ vertex.graph.uniforms vertex.roots,
    v.name ∉ callerUniforms → Supplies events v

lemma UniformValue.name_signature (name : String) (value : UniformValue) :
    (value.signature name).name = name := by
  cases value <;> rfl

lemma Variable.name_signature (v : Variable) : v.signature.name = v.name := by
  rw [signature]
  split <;> rfl

namespace Graph

variable {g : Graph} {roots : List NodeId} {roles : Roles} {v : Variable}

/-- The roles read what a stage declares. -/
lemma Only.reads (h : g.Only roles.Allows) (hv : v ∈ g.uniforms roots) : roles.Reads v := by
  obtain ⟨hfile, hcls⟩ := List.mem_filter.1 hv
  obtain ⟨id, -, hdeclared, -⟩ := mem_fileVariables.1 hfile
  obtain ⟨n, hn, hvariable⟩ := Option.bind_eq_some_iff.1 hdeclared
  have hallowed := h.of_node? hn
  cases hkind : n.kind with
  | var w =>
    rw [hkind] at hvariable hallowed
    obtain rfl := Option.some.inj hvariable
    rw [Roles.Allows] at hallowed
    rcases of_decide_eq_true hcls with huniform | hsampler
    · rwa [huniform] at hallowed
    · rwa [hsampler] at hallowed
  | _ =>
    rw [hkind] at hvariable
    cases hvariable

end Graph

namespace Generator

/-- A program that is chosen was made for a request with the same key, in the same context but for the
bone limits. -/
lemma Serving.exists_request {asked : List KeyPart → Prop} {g g' : Generator} (h : g.Serving asked)
    {r : ProgramRequest} {p : Program} (hp : g.programFor r = .ok (p, g')) :
    ∃ (limits : BoneLimits) (made : ProgramRequest), made.key limits = g.keyOf r ∧
      (g.context.withBoneLimits limits).compileProgram made.roles made.description =
        .ok p.stages := by
  have hkey : p.key = g.keyOf r := key_of_programFor hp
  rcases of_programFor hp with ⟨hkept, -⟩ | ⟨-, stages, hstages, rfl, -⟩
  · obtain ⟨limits, made, -, hmade, hstages⟩ := h.isHonest p (List.mem_of_find?_eq_some hkept)
    exact ⟨limits, made, hmade.symm.trans hkey, hstages⟩
  · exact ⟨g.context.boneLimits, r.effective g.context.settings, rfl, hstages⟩

end Generator

namespace Session

variable {sets : SharedSets} {s : Session} {g : Generator}

/-- What roles read is uploaded, if the request that they are from has the key of the state. -/
lemma Reachable.supplies (h : s.Reachable sets) {limits : BoneLimits} {made : ProgramRequest}
    (hkey : made.key limits = g.keyOf s.state.request) {v : Variable}
    (hreads : made.roles.Reads v) (hcaller : v.name ∉ callerUniforms) :
    Supplies s.state.uniformEvents v := by
  rcases hreads with hname | hswitch | ⟨unit, a, hplays, hsignature⟩
  · exact absurd hname hcaller
  · obtain ⟨value, hvalue⟩ := PipelineState.exists_uniform_mem h.hasColorSwitch
    exact ⟨value, hswitch ▸ hvalue, fun hne => absurd hswitch hne⟩
  · have htextures := h.texturesInUnits.effective g.context.settings
    obtain ⟨unit', a', hhas, henabled, hsignatures⟩ :=
      ProgramRequest.exists_has_of_key_eq hkey htextures hplays
    obtain ⟨hactive, hon⟩ := hhas.of_effective
    have hmem : v.signature ∈ a'.signatures unit' :=
      hsignatures ▸ hsignature (henabled.symm.trans hon)
    obtain ⟨u, hu, heq⟩ := List.mem_map.1 hmem
    have hname : u.1 = v.name := by
      rw [← UniformValue.name_signature u.1 u.2, heq, Variable.name_signature]
    refine ⟨u.2, ?_, fun _ => ?_⟩
    · rw [← hname]
      exact PipelineState.uniform_mem_of_has hactive hu
    · rw [← hname]
      exact heq

/-- **What a program reads is uploaded.** Without a described material on its stack, a state can be
applied with every generator, whatever was pushed before and whatever the generator was asked for. The
program that is bound then is supplied by the same application: each uniform that one of its stages
declares is uploaded, but for those that the caller supplies, and what belongs to an attribute is
uploaded with the declared type. -/
theorem Reachable.apply_supplies (h : s.Reachable sets) (i : Nat)
    (hplain : s.state.material? = none) :
    ∃ app p, s.state.apply (s.generators i) = .ok app ∧
      (s.generators i).programFor s.state.request = .ok (p, app.generator) ∧
      app.state.program = some p ∧
      ∃ (limits : BoneLimits) (roles : Roles),
        p.stages.Supplied (s.generators i).context roles.fragmentGraph
          (roles.vertexGraph limits roles.fragmentGraph.graph) app.events := by
  obtain ⟨p, g, hp⟩ := (s.generators i).exists_programFor (r := s.state.request) hplain
  refine ⟨s.applied p g, p, apply_eq hp, hp, h.inStep.program_applied hp, ?_⟩
  -- the program may be an old one, made for another request with the same key
  obtain ⟨limits, made, hkey, hstages⟩ := (h.inStep.serving i).exists_request hp
  obtain ⟨hfragment, -⟩ := made.roles.sound_fragmentGraph
  obtain ⟨hvertex, -⟩ := made.roles.sound_vertexGraph limits hfragment
  have hcompiled := Context.compileProgram_of_fault ((s.generators i).context.withBoneLimits limits)
    made.roles hvertex.fault
  have hdescription := ProgramRequest.description_effective_eq_none
    (s.generators i).context.settings (r := s.state.request) hplain
  rw [ProgramRequest.description_eq_none_of_key_eq hkey hdescription] at hstages
  have hprogram := Except.ok.inj (hstages.symm.trans hcompiled)
  refine ⟨limits, made.roles, hprogram, fun hlibrary => ?_, fun v hv hcaller => ?_⟩
  · have hbuiltin : ((s.generators i).context.withBoneLimits limits).library = {} := hlibrary
    rw [hprogram, Context.compile, Context.compile, hbuiltin]
    exact ⟨(hfragment.mono (List.nil_subset _)).shows_compileStage .common _
      made.roles.roots_fragmentGraph,
      hvertex.shows_compileStage .common _ (made.roles.roots_vertexGraph _ _)⟩
  · have hreads : made.roles.Reads v := by
      rcases List.mem_append.1 hv with hv | hv
      · exact made.roles.only_fragmentGraph.reads hv
      · exact (made.roles.only_vertexGraph limits _).reads hv
    obtain ⟨value, hvalue, htype⟩ := h.supplies hkey hreads hcaller
    exact ⟨value, List.mem_append_right _ hvalue, htype⟩

/-- All sets have a material. -/
def paintedSets : SharedSets where
  content _ := ({} : StateSet).setAttribute (.material {}) .on
  made _ := .setAttribute (.material {}) .on (.empty none)

/-- The session in which a material was pushed. -/
def painted : Session :=
  { Session.start fun _ => {} with state := PipelineState.initial.push (paintedSets.set 0) }

/-- The program of a material is bound and supplied, the colors of the material among the rest. -/
theorem apply_supplies_painted : painted.Reachable paintedSets ∧ painted.state.material? = none ∧
    ∃ p app, painted.state.apply (painted.generators 0) = .ok app ∧ app.state.program = some p ∧
      .uniform "uMaterialDiffuse" (.vec4 ({} : Material).diffuse) ∈ app.events ∧
      ∃ (limits : BoneLimits) (roles : Roles), p.stages.Supplied {} roles.fragmentGraph
        (roles.vertexGraph limits roles.fragmentGraph.graph) app.events := by
  have hreachable : painted.Reachable paintedSets :=
    .step (.start fun _ => {}) (@Step.push paintedSets (.start fun _ => {}) 0)
  obtain ⟨app, p, happ, hp, hbound, hsupplied⟩ := Reachable.apply_supplies hreachable 0 rfl
  have hevents := congrArg PipelineState.Application.events
    (Except.ok.inj (happ.symm.trans (apply_eq hp)))
  have hactive : .material {} ∈ painted.state.request.attributes := by
    change _ ∈ PipelineState.activeValues _ painted.state.attributes
    rw [PipelineState.activeValues_eq_map]
    exact List.mem_map.2 ⟨(⟨.material, 0⟩, .material {}), PipelineState.mem_activeEntries.2 rfl, rfl⟩
  have hdiffuse : .uniform "uMaterialDiffuse" (.vec4 ({} : Material).diffuse) ∈
      painted.state.uniformEvents :=
    PipelineState.uniform_mem_of_has (.outside hactive)
      (List.mem_cons_of_mem _ List.mem_cons_self)
  refine ⟨hreachable, rfl, p, app, happ, hbound, ?_, hsupplied⟩
  rw [hevents]
  exact List.mem_append_right _ hdiffuse

end Session

end SceneShading
