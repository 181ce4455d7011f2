import Mathlib.Tactic
import SceneShading.Proofs.Program.Described
import SceneShading.Proofs.Program.Surface

/-!
# Feeding described graphs

A described fragment graph asks for varyings, and a vertex graph has to be built that feeds them. Nothing
is known of a description beforehand, so little is asked of what it became: that no node refers to a
missing one. This is enough for a vertex graph without fault, unless a varying is named so that its name
without the first byte is no text (`Generator.programFor_described`).

The vertex graph owes the fragment graph its varyings: it has all of them, in their order and with their
types (`Graph.Carries`). The builders that feed them are then followed one by one with the judgement
`Keeps`, which lets a builder rely on operands that earlier ones have given. What comes out is that the
vertex graph is whole, and that a varying is fed if its name says what it carries
(`Roles.whole_vertexGraph`). A surface that is drawn into a shadow map has a fragment graph of its own,
which is whole as well (`Roles.whole_depthPass`).
-/

namespace SceneShading

open Builder BuildFact

variable {needs : List BuildFact}

namespace VertexGraph

/-! ## Builders of vertex graphs -/

/-- The targets of a channel are operands. -/
lemma keeps_targetPins (input : String) (indices : List Nat) :
    Keeps needs (targetPins input indices) fun pins => operands (pins.map (·.2)) := by
  induction indices generalizing needs with
  | nil =>
    rw [targetPins]
    exact .pure (by simp)
  | cons i indices ih =>
    rw [targetPins]
    refine .bind .vertexAttribute fun id => .bind ih fun pins => ?_
    exact .pure (by simp)

/-- A morphed channel is an operand. -/
lemma keeps_morphed (roles : Roles) (c : Channel) :
    Keeps needs (morphed roles c) fun id => [.operand id] := by
  rw [morphed]
  refine .orElse (.bind .vertexAttribute fun input => ?_)
  split
  · refine .bind .localNamed fun out => .bind .uniform fun weights => ?_
    refine .bind (keeps_targetPins _ _) fun targets => ?_
    exact .bind (.pins rfl (by simp) (by simp)) fun _ => .pure (by simp)
  · exact .pure (by simp)

/-- The matrix of the bones is an operand. -/
lemma keeps_boneMatrix (paletteSize : Nat) :
    Keeps needs (boneMatrix paletteSize) fun id => [.operand id] := by
  rw [boneMatrix]
  refine .orElse (.bind .localNamed fun matrix => .bind .vertexAttribute fun weights => ?_)
  refine .bind .vertexAttribute fun bones => .bind (.uniformArray _) fun palette => ?_
  exact .bind (.pins rfl (by simp) (by simp)) fun _ => .pure (by simp)

/-- A skinned channel is an operand. -/
lemma keeps_skinned (roles : Roles) (limits : BoneLimits) (c : Channel) :
    Keeps needs (skinned roles limits c) fun id => [.operand id] := by
  rw [skinned]
  refine .orElse (.bind (keeps_morphed roles c) fun input => ?_)
  cases roles.skinning with
  | none => exact .pure (by simp)
  | some skin =>
    refine .bind (keeps_boneMatrix _) fun matrix => .bind .localNamed fun out => ?_
    exact .bind (.pins rfl (by simp) (by simp)) fun _ => .pure (by simp)

/-- The deformed normal is an operand. -/
lemma keeps_localNormal (roles : Roles) (limits : BoneLimits) :
    Keeps needs (localNormal roles limits) fun id => [.operand id] := by
  rw [localNormal]
  refine .orElse (.bind (keeps_skinned roles limits _) fun normal => ?_)
  refine .bind .vertexAttribute fun input => ?_
  split
  · exact .pure (by simp)
  · refine .bind .localNamed fun out => ?_
    exact .bind (.pins rfl (by simp) (by simp)) fun _ => .pure (by simp)

/-- The deformed tangent is an operand. -/
lemma keeps_localTangent (roles : Roles) (limits : BoneLimits) :
    Keeps needs (localTangent roles limits) fun id => [.operand id] := by
  rw [localTangent]
  refine .orElse (.bind .vertexAttribute fun input => ?_)
  refine .bind (keeps_skinned roles limits _) fun tangent => ?_
  split
  · exact .pure (by simp)
  · refine .bind .temporary fun normalized => ?_
    refine .bind (.pins rfl (by simp) (by simp)) fun _ => .bind .localNamed fun out => ?_
    exact .bind (.pins rfl (by simp) (by simp)) fun _ => .pure (by simp)

/-- A transformed vector is an operand. -/
lemma keeps_transformed {name type matrix : String} {product : MatrixMult} {source : Builder NodeId}
    (hsource : Keeps needs source fun id => [.operand id]) :
    Keeps needs (transformed name type product matrix source) fun id => [.operand id] := by
  rw [transformed]
  refine .orElse (.bind hsource fun vector => ?_)
  refine .bind .localNamed fun out => .bind .uniform fun matrix => ?_
  exact .bind (.pins rfl (by simp) (by simp)) fun _ => .pure (by simp)

/-- The position in view space is an operand. -/
lemma keeps_viewVertex (roles : Roles) (limits : BoneLimits) :
    Keeps needs (viewVertex roles limits) fun id => [.operand id] :=
  keeps_transformed (keeps_skinned roles limits vertexChannel)

/-- What a varying carries is an operand. -/
lemma keeps_varyingSource {roles : Roles} {limits : BoneLimits} {name : String}
    {source : Builder NodeId} (h : varyingSource roles limits name = some source) :
    Keeps needs source fun id => [.operand id] := by
  have hvertex : Keeps needs (localVertex roles limits) fun id => [.operand id] :=
    keeps_skinned roles limits vertexChannel
  have hnormal : Keeps needs _ _ := keeps_localNormal roles limits
  have htangent : Keeps needs _ _ := keeps_localTangent roles limits
  rw [varyingSource.eq_def] at h
  split at h
  all_goals cases h
  · exact keeps_transformed hvertex
  · exact keeps_transformed hnormal
  · exact keeps_transformed htangent
  · exact keeps_viewVertex roles limits
  · exact keeps_transformed hnormal
  · exact keeps_transformed htangent

/-- The position of the vertex on the screen is an operand. -/
lemma keeps_position (roles : Roles) (limits : BoneLimits) :
    Keeps needs (position roles limits) fun id => [.operand id] := by
  rw [position]
  refine .bind (.output .position) fun out => ?_
  split
  · refine .bind .vertexAttribute fun vertex => .bind .uniform fun modelView => ?_
    refine .bind .uniform fun projection => ?_
    exact .bind (.pins rfl (by simp) (by simp)) fun _ => .pure (by simp)
  · refine .bind .uniform fun projection => .bind (keeps_viewVertex roles limits) fun vertex => ?_
    exact .bind (.pins rfl (by simp) (by simp)) fun _ => .pure (by simp)

/-! ## Varyings -/

/-- The varyings that carry geometry, or the color of the vertices. -/
def geometryVaryings : List String :=
  ["vModelVertex", "vModelNormal", "vModelTangent", "vViewVertex", "vViewNormal", "vViewTangent",
    "vVertexColor"]

/-- The texture coordinates of a varying are those of an attribute that has no name: the first
character of the varying is cut. -/
def IsCut (name : String) : Prop := carriesTexCoord name = true ∧ texCoordAttribute? name = none

instance (name : String) : Decidable (IsCut name) := inferInstanceAs (Decidable (_ ∧ _))

/-- The name says what the varying carries. -/
def IsKnown (name : String) : Prop := name ∈ geometryVaryings ∨ carriesTexCoord name = true

instance (name : String) : Decidable (IsKnown name) := inferInstanceAs (Decidable (_ ∨ _))

/-- What is fed by the first pass over the varyings. -/
def fedGeometry (name : String) (id : NodeId) : List BuildFact :=
  if name ∈ geometryVaryings then [.fed id] else []

/-- What is fed by the second pass over the varyings. -/
def fedTexCoord (name : String) (id : NodeId) : List BuildFact :=
  if carriesTexCoord name then [.fed id] else []

/-- What carries geometry is known to the vertex stage. -/
lemma source_of_mem_geometryVaryings (roles : Roles) (limits : BoneLimits) {name : String}
    (h : name ∈ geometryVaryings) :
    (varyingSource roles limits name).isSome ∨ name = "vVertexColor" := by
  simp only [geometryVaryings, List.mem_cons, List.not_mem_nil, or_false] at h
  rcases h with rfl | rfl | rfl | rfl | rfl | rfl | rfl
  all_goals first | exact .inl rfl | exact .inr rfl

/-- A varying that carries geometry or colors is fed. -/
lemma keeps_writeVarying (roles : Roles) (limits : BoneLimits) {name : String} {id : NodeId}
    (hid : .operand id ∈ needs) :
    Keeps needs (writeVarying roles limits name id) fun _ => fedGeometry name id := by
  have hsingle : fedGeometry name id ⊆ [.fed id] := by
    unfold fedGeometry
    split <;> simp
  rw [writeVarying]
  cases hsource : varyingSource roles limits name with
  | some source =>
    have hcolor : name ≠ "vVertexColor" := by
      rintro rfl
      cases hsource
    rw [if_neg hcolor]
    refine .bind (keeps_varyingSource hsource) fun value => ?_
    refine .bind (.feeds (.inl rfl) (.combine (.inr (.inr rfl)) (by simp)) (by simp) ?_
      (List.mem_singleton_self id)) fun _ => ?_
    · exact List.cons_subset.2 ⟨List.mem_append_right _ hid, List.nil_subset _⟩
    · exact .pure (List.Subset.trans hsingle (by simp))
  | none =>
    by_cases hcolor : name = "vVertexColor"
    · rw [if_pos hcolor]
      refine .bind .uniform fun enabled => .bind .vertexAttribute fun color => ?_
      refine .bind (.feeds (.inr ⟨_, rfl⟩) (.snippet (by decide) (by simp [pins_vertexColorCode])
        (.inl pins_vertexColorCode.2)) (by simp) ?_ (List.mem_singleton_self id)) fun _ => ?_
      · exact List.cons_subset.2 ⟨by simp [hid], List.nil_subset _⟩
      · exact .pure (List.Subset.trans hsingle (by simp))
    · have hnot : name ∉ geometryVaryings := by
        intro hmem
        rcases source_of_mem_geometryVaryings roles limits hmem with hsome | hname
        · rw [hsource] at hsome
          cases hsome
        · exact hcolor hname
      rw [if_neg hcolor, fedGeometry, if_neg hnot]
      exact .pure (List.nil_subset _)

/-- The varyings that carry geometry or colors are fed. -/
lemma keeps_writeVaryings (roles : Roles) (limits : BoneLimits) {varyings : List (String × NodeId)}
    (hvaryings : operands (varyings.map (·.2)) ⊆ needs) :
    Keeps needs (writeVaryings roles limits varyings)
      fun _ => varyings.flatMap fun e => fedGeometry e.1 e.2 := by
  induction varyings generalizing needs with
  | nil =>
    rw [writeVaryings]
    exact .pure (List.nil_subset _)
  | cons e varyings ih =>
    obtain ⟨hfirst, hrest⟩ := List.cons_subset.1 hvaryings
    rw [writeVaryings]
    refine .bind (keeps_writeVarying roles limits hfirst) fun _ => ?_
    exact (ih (List.Subset.trans hrest (List.subset_append_right _ _))).frame
      (List.subset_append_left _ _)

/-- A varying that carries texture coordinates is fed, if its name is not cut. -/
lemma keeps_writeTexCoord {name : String} {id : NodeId} (hid : .operand id ∈ needs)
    (hname : ¬IsCut name) : Keeps needs (writeTexCoord name id) fun _ => fedTexCoord name id := by
  cases hmark : carriesTexCoord name with
  | false =>
    have hoccurs : Text.occursIn texCoordMark.toList name.toList = false := hmark
    rw [writeTexCoord, hoccurs, if_neg Bool.false_ne_true, fedTexCoord, hmark,
      if_neg Bool.false_ne_true]
    exact .pure (List.nil_subset _)
  | true =>
    have hoccurs : Text.occursIn texCoordMark.toList name.toList = true := hmark
    cases hattribute : texCoordAttribute? name with
    | none => exact absurd ⟨hmark, hattribute⟩ hname
    | some input =>
      rw [writeTexCoord, if_pos hoccurs, hattribute, fedTexCoord, if_pos hmark]
      refine .bind .vertexAttribute fun coordinates => ?_
      refine .bind (.feeds (.inl rfl) (.combine (.inr (.inr rfl)) (by simp)) (by simp) ?_
        (List.mem_singleton_self id)) fun _ => .pure (by simp)
      exact List.cons_subset.2 ⟨List.mem_append_right _ hid, List.nil_subset _⟩

/-- The varyings that carry texture coordinates are fed, if no name is cut. -/
lemma keeps_writeTexCoords {varyings : List (String × NodeId)}
    (hvaryings : operands (varyings.map (·.2)) ⊆ needs) (hnames : ∀ e ∈ varyings, ¬IsCut e.1) :
    Keeps needs (writeTexCoords varyings)
      fun _ => varyings.flatMap fun e => fedTexCoord e.1 e.2 := by
  induction varyings generalizing needs with
  | nil =>
    rw [writeTexCoords]
    exact .pure (List.nil_subset _)
  | cons e varyings ih =>
    obtain ⟨hfirst, hrest⟩ := List.cons_subset.1 hvaryings
    obtain ⟨hname, hnames⟩ := List.forall_mem_cons.1 hnames
    rw [writeTexCoords]
    refine .bind (keeps_writeTexCoord hfirst hname) fun _ => ?_
    exact (ih (List.Subset.trans hrest (List.subset_append_right _ _)) hnames).frame
      (List.subset_append_left _ _)

/-- The vertex graph refers to nothing missing; its roots exist, and the varyings whose names say
what they carry are fed. -/
lemma keeps_build (roles : Roles) (limits : BoneLimits) {varyings : List (String × NodeId)}
    (hvaryings : operands (varyings.map (·.2)) ⊆ needs) (hnames : ∀ e ∈ varyings, ¬IsCut e.1) :
    Keeps needs (build roles limits varyings) fun ids =>
      ((varyings.flatMap fun e => fedTexCoord e.1 e.2) ++
        varyings.flatMap fun e => fedGeometry e.1 e.2) ++ ids.map .node := by
  rw [build]
  refine .bind (.output .pointSize) fun pointSize => .bind .constant fun one => ?_
  refine .bind (.operation rfl (by simp) (by simp [Outputs.targets])) fun _ => ?_
  refine .bind (keeps_position roles limits) fun position => ?_
  refine .bind (keeps_writeVaryings roles limits ?_) fun _ => ?_
  · exact fun fact hfact => by simp [hvaryings hfact]
  refine .bind (keeps_writeTexCoords ?_ hnames) fun _ => ?_
  · exact fun fact hfact => by simp [hvaryings hfact]
  refine .bind .programName fun name => .frame (.pureNodes fun id hid => ?_) ?_
  · simp only [List.mem_append, List.mem_cons, List.not_mem_nil, or_false] at hid
    rcases hid with ((rfl | rfl) | hid) | rfl
    · exact .inl (by simp)
    · exact .inl (by simp)
    · exact .inl (by simp [hvaryings (mem_operands.2 hid)])
    · exact .inr (by simp)
  · refine List.append_subset.2 ⟨?_, ?_⟩
    · exact List.subset_append_of_subset_right _ (List.subset_append_left _ _)
    · exact List.subset_append_of_subset_right _
        (List.subset_append_of_subset_right _ (List.subset_append_left _ _))

end VertexGraph

/-! ## Varyings of any graph -/

namespace Graph

variable {fragment g : Graph} {es : List (String × NodeId)}

/-- The graph has the varyings of a fragment graph, in their order and with their types. -/
structure Carries (fragment : Graph) (es : List (String × NodeId)) (g : Graph) : Prop where
  referential : g.Referential
  fault : g.fault = none
  owed : List.Forall₂ (fun e e' => e'.1 = e.1 ∧ g.declared? e'.2 = some
    { cls := .varying, type := ((fragment.declared? e.2).map (·.type)).getD "", name := e.1 })
    es g.varyings

/-- One more varying. -/
lemma Carries.owe (h : Carries fragment es g) (e : String × NodeId) :
    Carries fragment (es ++ [e]) (owe fragment g e) := by
  obtain ⟨hreferential, hfault, howed⟩ := h
  unfold Graph.owe
  set v : Variable :=
    { cls := .varying, type := ((fragment.declared? e.2).map (·.type)).getD "", name := e.1 }
  have hnew := declared?_insertVariable g v
  have hgrows := (g.builds_insertVariable v).grows
  refine ⟨(hreferential.insertVariable v).addVarying hnew rfl, hfault, ?_⟩
  refine List.rel_append (howed.imp fun e e' hold => ?_) (.cons ⟨rfl, hnew⟩ .nil)
  exact ⟨hold.1, hgrows.declared? hold.2⟩

/-- Every varying is owed. -/
lemma Carries.exists_owed (h : Carries fragment es g) {e' : String × NodeId} (he : e' ∈ g.varyings) :
    ∃ e ∈ es, e'.1 = e.1 ∧ g.declared? e'.2 = some
      { cls := .varying, type := ((fragment.declared? e.2).map (·.type)).getD "", name := e.1 } := by
  obtain ⟨i, hi, rfl⟩ := List.getElem_of_mem he
  have hi' : i < es.length := h.owed.length_eq ▸ hi
  exact ⟨es[i], List.getElem_mem hi', h.owed.get hi' hi⟩

/-- All that is asked for is owed. -/
lemma Carries.exists_varying (h : Carries fragment es g) {e : String × NodeId} (he : e ∈ es) :
    ∃ e' ∈ g.varyings, e'.1 = e.1 ∧ g.declared? e'.2 = some
      { cls := .varying, type := ((fragment.declared? e.2).map (·.type)).getD "", name := e.1 } := by
  obtain ⟨i, hi, rfl⟩ := List.getElem_of_mem he
  have hi' : i < g.varyings.length := h.owed.length_eq ▸ hi
  exact ⟨g.varyings[i], List.getElem_mem hi', h.owed.get hi hi'⟩

/-- The vertex graph that owes a fragment graph its varyings has them. -/
lemma carries_vertexFor (fragment : Graph) : Carries fragment fragment.varyings fragment.vertexFor := by
  have hfold : ∀ (es' es : List (String × NodeId)) (g : Graph), Carries fragment es g →
      Carries fragment (es ++ es') (es'.foldl (Graph.owe fragment) g) := by
    intro es'
    induction es' with
    | nil => exact fun es g hg => (List.append_nil es).symm ▸ hg
    | cons e es' ih =>
      intro es g hg
      rw [List.append_cons]
      exact ih _ _ (hg.owe e)
  refine hfold fragment.varyings [] (ofStage .vertex) ⟨referential_ofStage .vertex, rfl, .nil⟩

end Graph

/-- The vertex graph for a fragment graph where no name is cut refers to nothing missing. What it owes
is declared, and it is fed if the name of the varying says what it carries. -/
lemma Roles.whole_vertexGraph (roles : Roles) (limits : BoneLimits) {fragment : Graph}
    (hnames : ∀ e ∈ fragment.varyings, ¬VertexGraph.IsCut e.1) :
    let vertex := roles.vertexGraph limits fragment
    vertex.Whole ∧ fragment.vertexFor.Builds vertex.graph ∧
      ∀ e ∈ fragment.vertexFor.varyings, VertexGraph.IsKnown e.1 →
        (BuildFact.fed e.2).Holds vertex.graph := by
  intro vertex
  obtain ⟨hreferential, hfault, howed⟩ := fragment.carries_vertexFor
  have hoperands : ∀ fact ∈ operands (fragment.vertexFor.varyings.map (·.2)),
      fact.Holds fragment.vertexFor := by
    intro fact hfact
    obtain ⟨id, hid, rfl⟩ := List.mem_map.1 hfact
    obtain ⟨e, he, rfl⟩ := List.mem_map.1 hid
    obtain ⟨v, hv, -⟩ := hreferential.varyings e he
    exact Graph.isSome_operand? (hv ▸ rfl)
  have hcuts : ∀ e ∈ fragment.vertexFor.varyings, ¬VertexGraph.IsCut e.1 := by
    intro e he
    obtain ⟨e', he', hname, -⟩ := fragment.carries_vertexFor.exists_owed he
    exact hname ▸ hnames e' he'
  obtain ⟨hlast, hbuilds, hgiven⟩ := VertexGraph.keeps_build roles limits
    (List.Subset.refl _) hcuts fragment.vertexFor hreferential hoperands
  refine ⟨⟨hlast, fun id hid => ?_, hbuilds.fault.trans hfault⟩, hbuilds, fun e he hknown => ?_⟩
  · exact hgiven (.node id) (List.mem_append_right _ (List.mem_map_of_mem hid))
  · refine hgiven (.fed e.2) (List.mem_append_left _ ?_)
    rcases hknown with hknown | hknown
    · refine List.mem_append_right _ (List.mem_flatMap_of_mem he ?_)
      rw [VertexGraph.fedGeometry, if_pos hknown]
      exact List.mem_singleton_self _
    · refine List.mem_append_left _ (List.mem_flatMap_of_mem he ?_)
      rw [VertexGraph.fedTexCoord, if_pos hknown]
      exact List.mem_singleton_self _

/-! ## Programs of described requests -/

/-- The depth pass refers to nothing missing. -/
lemma DepthPass.keeps_build (cast : ShadowCast) (name : String) :
    Keeps needs (DepthPass.build cast name) fun ids => ids.map .node := by
  rw [DepthPass.build]
  refine .bind (.output .fragColor) fun color => .bind .uniform fun exponent0 => ?_
  refine .bind .uniform fun exponent1 => .bind .uniform fun depthRange => ?_
  refine .bind .varying fun eye => .bind (.pins rfl (by simp) (by simp)) fun _ => ?_
  refine .bind .programName fun name => .pureNodes fun id hid => ?_
  simp only [List.mem_cons, List.not_mem_nil, or_false] at hid
  rcases hid with rfl | rfl
  · exact .inl (by simp)
  · exact .inr (by simp)

namespace Roles

/-- A surface that is drawn into a shadow map plays the role of one. -/
lemma isSome_cast_ofAttributes {attributes : List Attribute} {cast : ShadowCast}
    (hmem : .shadowCast cast ∈ attributes) (henabled : cast.enabled = true)
    (units : List (List Attribute)) : (ofAttributes attributes units).cast.isSome := by
  have hkept : ∀ (attributes : List Attribute) (roles : Roles), roles.cast.isSome →
      (attributes.foldl add roles).cast.isSome := by
    intro attributes
    induction attributes with
    | nil => exact fun roles hroles => hroles
    | cons a attributes ih =>
      refine fun roles hroles => ih _ ?_
      cases a with
      | shadowCast c =>
        change (if c.enabled = true then { roles with cast := some c } else roles).cast.isSome
        split
        · rfl
        · exact hroles
      | _ => exact hroles
  obtain ⟨before, after, rfl⟩ := List.append_of_mem hmem
  change ((before ++ .shadowCast cast :: after).foldl add {}).cast.isSome
  rw [List.foldl_append, List.foldl_cons]
  refine hkept after _ ?_
  rw [add, if_pos henabled]
  rfl

/-- The graphs of a surface that is drawn into a shadow map refer to nothing missing. -/
lemma whole_depthPass {roles : Roles} (hcast : roles.cast.isSome) (limits : BoneLimits) :
    roles.fragmentGraph.Whole ∧
      (roles.vertexGraph limits roles.fragmentGraph.graph).Whole := by
  obtain ⟨cast, hcast⟩ := Option.isSome_iff_exists.1 hcast
  have hsound := roles.sound_fragmentGraph.1
  have hnames : ∀ e ∈ roles.fragmentGraph.graph.varyings, ¬VertexGraph.IsCut e.1 := by
    rintro e he ⟨hmark, hnone⟩
    obtain ⟨v, -, -, hname, hcarried⟩ := hsound.varyings e he
    obtain ⟨unit, hattribute⟩ := VertexGraph.texCoordAttribute?_of_carried (hname ▸ hcarried) hmark
    rw [hnone] at hattribute
    cases hattribute
  have hgraph : roles.fragmentGraph = .ofBuilder (DepthPass.build cast roles.programName)
      (Graph.ofStage .fragment) := by
    rw [fragmentGraph, hcast, Option.elim_some]
  obtain ⟨hreferential, hbuilds, hroots⟩ := DepthPass.keeps_build cast roles.programName
    (Graph.ofStage .fragment) (Graph.referential_ofStage .fragment) (List.forall_mem_nil _)
  refine ⟨?_, (roles.whole_vertexGraph limits hnames).1⟩
  rw [hgraph]
  exact ⟨hreferential, fun id hid => hroots (.node id) (List.mem_map_of_mem hid), hbuilds.fault⟩

end Roles

namespace ProgramRequest

/-- The fragment graph that a request is compiled from. -/
def fragmentGraph (ctx : Context) (r : ProgramRequest) : RootedGraph :=
  r.description.elim r.roles.fragmentGraph ctx.describedGraph

/-- The vertex graph that a request is compiled from. -/
def vertexGraph (ctx : Context) (r : ProgramRequest) : RootedGraph :=
  r.roles.vertexGraph ctx.boneLimits (r.fragmentGraph ctx).graph

/-- A request keeps its description, unless the surface is drawn into a shadow map. -/
lemma description_effective (settings : Settings) (r : ProgramRequest) :
    (r.effective settings).description = r.description ∨
      (r.effective settings).description = none ∧ (r.effective settings).roles.cast.isSome := by
  set accepted : ProgramRequest := { r with
    attributes := ProgramRequest.accepted settings r.attributes
    units := r.units.map (ProgramRequest.accepted settings) } with haccepted
  change accepted.narrowed.description = accepted.description ∨
    accepted.narrowed.description = none ∧ accepted.narrowed.roles.cast.isSome
  unfold narrowed
  split
  next hcasts =>
    obtain ⟨a, ha, hkind⟩ := List.any_eq_true.1 hcasts
    cases a with
    | shadowCast cast =>
      have henabled : cast.enabled = true :=
        (Bool.and_eq_true_iff.1 (List.mem_filter.1 ha).2).2
      exact .inr ⟨rfl, Roles.isSome_cast_ofAttributes (List.mem_filter.2 ⟨ha, rfl⟩) henabled _⟩
    | _ => cases hkind
  next => exact .inl rfl

end ProgramRequest

/-- The stages of a request, when nothing is wrong with its vertex graph. -/
lemma Generator.compile_of_fault (generator : Generator) (r : ProgramRequest)
    (h : (r.vertexGraph generator.context).graph.fault = none) :
    let fragment := r.fragmentGraph generator.context
    let vertex := r.vertexGraph generator.context
    generator.compile r = .ok ⟨generator.context.compile vertex.graph vertex.roots,
      generator.context.compile fragment.graph fragment.roots⟩ := by
  unfold ProgramRequest.vertexGraph ProgramRequest.fragmentGraph at *
  unfold compile Context.compileProgram Context.compileFor
  dsimp only
  rw [h]

/-- No varying of the described graph loses a part of a character with its first byte. -/
def Context.IsUncut (ctx : Context) (d : Description) : Prop :=
  ∀ e ∈ (ctx.describedGraph d).graph.varyings, ¬VertexGraph.IsCut e.1

instance (ctx : Context) (d : Description) : Decidable (ctx.IsUncut d) :=
  inferInstanceAs (Decidable (∀ e ∈ (ctx.describedGraph d).graph.varyings, _))

/-- A request is answered when nothing is wrong with its vertex graph. -/
lemma Generator.exists_programFor_of_fault (generator : Generator) (r : ProgramRequest)
    (h : ((r.effective generator.context.settings).vertexGraph generator.context).graph.fault =
      none) : ∃ answer, generator.programFor r = .ok answer := by
  unfold Generator.programFor
  simp only
  split
  next program _ => exact ⟨_, rfl⟩
  next =>
    rw [generator.compile_of_fault _ h]
    exact ⟨_, rfl⟩

/-- A request is answered if its description is uncut. -/
lemma Generator.exists_programFor_of_isUncut (generator : Generator) (r : ProgramRequest)
    (h : ∀ d, r.description = some d → generator.context.IsUncut d) :
    ∃ answer, generator.programFor r = .ok answer := by
  refine generator.exists_programFor_of_fault r ?_
  unfold ProgramRequest.vertexGraph ProgramRequest.fragmentGraph
  cases hdescription : (r.effective generator.context.settings).description with
  | none => exact (Roles.sound_vertexGraph _ _ (Roles.sound_fragmentGraph _).1).1.fault
  | some d =>
    have hkept := (r.description_effective generator.context.settings).resolve_right fun hnone => by
      rw [hnone.1] at hdescription
      cases hdescription
    have huncut := h d (hkept.symm.trans hdescription)
    exact (Roles.whole_vertexGraph _ _ huncut).1.fault

/-- **A request with a description is answered.** Whatever the description, the attributes, the units
and the generator, there is a program, and the graphs that it is compiled from refer to no missing
node, provided that no varying of the described graph loses a part of a character with its first
byte. -/
theorem Generator.programFor_described (generator : Generator) (r : ProgramRequest) (d : Description)
    (huncut : generator.context.IsUncut d) :
    let effective := { r with description := some d }.effective generator.context.settings
    (∃ answer, generator.programFor { r with description := some d } = .ok answer) ∧
      (effective.fragmentGraph generator.context).Whole ∧
        (effective.vertexGraph generator.context).Whole := by
  intro effective
  refine ⟨generator.exists_programFor_of_isUncut _ fun d' hd' => ?_, ?_⟩
  · cases hd'
    exact huncut
  · unfold ProgramRequest.vertexGraph ProgramRequest.fragmentGraph
    rcases ProgramRequest.description_effective generator.context.settings
      { r with description := some d } with hkept | ⟨hnone, hcast⟩
    · rw [hkept]
      exact ⟨Description.whole_describedGraph _ d, (Roles.whole_vertexGraph _ _ huncut).1⟩
    · rw [hnone]
      exact Roles.whole_depthPass hcast _

/-- A description that shows the normals of a model as colors. -/
def Description.normals : Description where
  nodes := [
    { id := "normal", nodeType := "Varying", args := [.text "vec3", .text "vModelNormal"] },
    { id := "out", nodeType := "glFragColor" },
    { id := "copy", nodeType := "SetFromNode", inputs := some (.single "normal"),
      outputs := some (.single "out") }]
  roots := ["out"]

/-- The description of normals is valid and uncut, and it is answered. -/
theorem Generator.programFor_normals : Description.normals.validate = .ok () ∧
    ({} : Generator).context.IsUncut .normals ∧
      ∃ answer, Generator.programFor {} { description := some .normals } = .ok answer := by
  have huncut : ({} : Generator).context.IsUncut .normals := by decide +kernel
  have hvalid : Description.normals.validate = .ok () := by rfl
  have hanswered := Generator.programFor_described {} {} .normals huncut
  exact ⟨hvalid, huncut, hanswered.1⟩

end SceneShading
