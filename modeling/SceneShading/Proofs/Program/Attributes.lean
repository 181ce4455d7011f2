import Mathlib.Tactic
import SceneShading.Proofs.Graph.Weaving
import SceneShading.Proofs.Program.Feeding

/-!
# Attributes of vertex graphs

A vertex graph for varyings that it knows tells attributes by their names, and its morphs blend as many
targets as the roles have, at most four (`Roles.woven_vertexGraph`). The position on the screen is
computed from the position attribute, step by step: no varying has the name of a step, so each of them
is made from the one before.
-/

namespace SceneShading

open Builder

namespace VertexGraph

open VertexFact

variable {free names : List String} {needs : List VertexFact}

/-! ## Channels -/

/-- The attribute of the channel, its targets and its steps are told apart by their names. -/
structure Channel.IsTold (c : Channel) : Prop where
  input : Variable.IsTold { cls := .attribute, type := c.type, name := c.input }
  target : ∀ i : Nat, Variable.IsTold
    { cls := .attribute, type := targetType c.input, name := c.input ++ "_" ++ toString i }
  morphed : IsSmall c.morphed
  skinned : IsSmall c.skinned

lemma isTold_vertexChannel : vertexChannel.IsTold where
  input := isTold_position (.inl rfl) (by decide)
  target i := isTold_position (.inr ⟨toString i, rfl⟩)
    (IsLine.append (by decide) (isLine_toString i))
  morphed := by decide
  skinned := by decide

lemma isTold_normalChannel : normalChannel.IsTold where
  input := IsCapital.isTold (by decide) (by decide) (by decide) (by decide)
  target i := IsCapital.isTold (IsCapital.append (by decide) _)
    ⟨IsLine.append (by decide) (isLine_toString i), by decide⟩
    (not_mem_append_toString (by decide) (by decide) i) (by decide)
  morphed := by decide
  skinned := by decide

lemma isTold_tangentChannel : tangentChannel.IsTold where
  input := IsCapital.isTold (by decide) (by decide) (by decide) (by decide)
  target i := IsCapital.isTold (IsCapital.append (by decide) _)
    ⟨IsLine.append (by decide) (isLine_toString i), by decide⟩
    (not_mem_append_toString (by decide) (by decide) i) (by decide)
  morphed := by decide
  skinned := by decide

/-! ## Builders of vertex graphs -/

/-- The targets of a channel are attributes. -/
lemma weaves_targetPins {count : Nat} {c : Channel} (hc : c.IsTold) (indices : List Nat) :
    Weaves count free needs (targetPins c.input indices)
      fun pins => pins.map fun p => isAttribute p.2 := by
  induction indices generalizing free needs with
  | nil =>
    rw [targetPins]
    exact .pure (by simp)
  | cons i indices ih =>
    rw [targetPins]
    refine .bind (.vertexAttribute (List.nil_subset _) (hc.target i)) fun id => ?_
    exact .bind ih fun pins => .pure (by simp)

/-- A morphed channel draws on its attribute. -/
lemma weaves_morphed (roles : Roles) {c : Channel} (hc : c.IsTold) (hnames : names ⊆ [c.input])
    (hfree : c.morphed ∈ free ∨ names = []) :
    Weaves (blendedTargets roles) free needs (morphed roles c)
      fun id => [.operand id, .draws id names] := by
  rw [morphed]
  refine .orElseDrawn (.bind (.vertexAttribute hnames hc.input) fun input => ?_) hfree
  split
  next htargets =>
    have hpositive := List.mem_range.1 (mem_range_blendedTargets htargets)
    refine .bind (.localNamed hc.morphed) fun out => ?_
    refine .bind (.uniform (by decide) (by decide)) fun weights => ?_
    refine .bindAnswer (weaves_targetPins hc _) (names_targetPins _ _) fun targets hpins => ?_
    refine .bind (.morph names hpositive hpins (by simp) (by simp) (by simp) (by simp) (by simp))
      fun _ => ?_
    exact .pure (by simp)
  next => exact .pure (by simp)

/-- The matrix of the bones. -/
lemma weaves_boneMatrix {count : Nat} (paletteSize : Nat) :
    Weaves count free needs (boneMatrix paletteSize) fun id => [.operand id] := by
  rw [boneMatrix]
  refine .orElse (.bind (.localNamed (by decide)) fun matrix => ?_)
  refine .bind (.vertexAttribute (List.nil_subset _)
    (IsCapital.isTold (by decide) (by decide) (by decide) (by decide))) fun weights => ?_
  refine .bind (.vertexAttribute (List.nil_subset _)
    (IsCapital.isTold (by decide) (by decide) (by decide) (by decide))) fun bones => ?_
  refine .bind (.uniformArray (by decide) (by decide) _) fun palette => ?_
  exact .bind (.pins rfl (by simp) (by simp) (by simp)) fun _ => .pure (by simp)

/-- A skinned channel draws on its attribute. -/
lemma weaves_skinned (roles : Roles) (limits : BoneLimits) {c : Channel} (hc : c.IsTold)
    (hnames : names ⊆ [c.input]) (hfree : [c.skinned, c.morphed] ⊆ free ∨ names = []) :
    Weaves (blendedTargets roles) free needs (skinned roles limits c)
      fun id => [.operand id, .draws id names] := by
  have hskinned : c.skinned ∈ free ∨ names = [] := hfree.imp_left fun h => h (by simp)
  have hmorphed : c.morphed ∈ free ∨ names = [] := hfree.imp_left fun h => h (by simp)
  rw [skinned]
  refine .orElseDrawn (.bind (weaves_morphed roles hc hnames hmorphed) fun input => ?_) hskinned
  cases roles.skinning with
  | none => exact .pure (by simp)
  | some skin =>
    refine .bind (weaves_boneMatrix _) fun matrix => .bind (.localNamed hc.skinned) fun out => ?_
    refine .bind (.pinsDrawn input names rfl (by simp) (by simp) (by simp) (by simp) (by simp))
      fun _ => ?_
    exact .pure (by simp)

/-- The deformed normal. -/
lemma weaves_localNormal (roles : Roles) (limits : BoneLimits) :
    Weaves (blendedTargets roles) free needs (localNormal roles limits)
      fun id => [.operand id] := by
  rw [localNormal]
  refine .orElse (.bind (weaves_skinned roles limits isTold_normalChannel (List.nil_subset _)
    (.inr rfl)) fun normal => ?_)
  refine .bind (.vertexAttribute (List.nil_subset _) isTold_normalChannel.input) fun input => ?_
  split
  · exact .pure (by simp)
  · refine .bind (.localNamed (by decide)) fun out => ?_
    exact .bind (.pins rfl (by simp) (by simp) (by simp)) fun _ => .pure (by simp)

/-- The deformed tangent. -/
lemma weaves_localTangent (roles : Roles) (limits : BoneLimits) :
    Weaves (blendedTargets roles) free needs (localTangent roles limits)
      fun id => [.operand id] := by
  rw [localTangent]
  refine .orElse (.bind (.vertexAttribute (List.nil_subset _) isTold_tangentChannel.input)
    fun input => ?_)
  refine .bind (weaves_skinned roles limits isTold_tangentChannel (List.nil_subset _)
    (.inr rfl)) fun tangent => ?_
  split
  · exact .pure (by simp)
  · refine .bind .temporary fun normalized => ?_
    refine .bind (.pins rfl (by simp) (by simp) (by simp)) fun _ => ?_
    refine .bind (.localNamed (by decide)) fun out => ?_
    exact .bind (.pins rfl (by simp) (by simp) (by simp)) fun _ => .pure (by simp)

/-- A transformed vector draws on what the vector draws on. -/
lemma weaves_transformed {count : Nat} {name type matrix : String} {product : MatrixMult}
    {source : Builder NodeId} (hname : IsSmall name) (hmatrix : IsSmall matrix ∧ IsLine matrix)
    (hsource : Weaves count free needs source fun id => [.operand id, .draws id names])
    (hfree : name ∈ free ∨ names = []) :
    Weaves count free needs (transformed name type product matrix source)
      fun id => [.operand id, .draws id names] := by
  rw [transformed]
  refine .orElseDrawn (.bind hsource fun vector => ?_) hfree
  refine .bind (.localNamed hname) fun out => ?_
  refine .bind (.uniform hmatrix.1 ⟨hmatrix.2, by decide⟩) fun matrix => ?_
  refine .bind (.pinsDrawn vector names rfl (by simp) (by simp) (by simp) (by simp) (by simp))
    fun _ => ?_
  exact .pure (by simp)

/-- The steps from the position attribute to the position in view space. -/
def positionSteps : List String := ["viewVertex", "skinVertex", "morphVertex"]

/-- The position in view space draws on the position attribute. -/
lemma weaves_viewVertex (roles : Roles) (limits : BoneLimits) (hnames : names ⊆ ["Vertex"])
    (hfree : positionSteps ⊆ free ∨ names = []) :
    Weaves (blendedTargets roles) free needs (viewVertex roles limits)
      fun id => [.operand id, .draws id names] := by
  have hsteps : [vertexChannel.skinned, vertexChannel.morphed] ⊆ positionSteps := by decide
  refine weaves_transformed (by decide) (by decide) ?_ (hfree.imp_left fun h => h (by decide))
  exact weaves_skinned roles limits isTold_vertexChannel hnames
    (hfree.imp_left (List.Subset.trans hsteps))

/-- What a varying carries is an operand. -/
lemma weaves_varyingSource {roles : Roles} {limits : BoneLimits} {name : String}
    {source : Builder NodeId} (h : varyingSource roles limits name = some source) :
    Weaves (blendedTargets roles) free needs source fun id => [.operand id] := by
  have hvertex : Weaves (blendedTargets roles) free needs (localVertex roles limits)
      fun id => [.operand id, .draws id []] :=
    weaves_skinned roles limits isTold_vertexChannel (List.nil_subset _) (.inr rfl)
  have hnormal : Weaves (blendedTargets roles) free needs (localNormal roles limits)
      fun id => [.operand id, .draws id []] := (weaves_localNormal roles limits).drawnNothing
  have htangent : Weaves (blendedTargets roles) free needs (localTangent roles limits)
      fun id => [.operand id, .draws id []] := (weaves_localTangent roles limits).drawnNothing
  rw [varyingSource.eq_def] at h
  split at h
  all_goals cases h
  · exact (weaves_transformed (by decide) (by decide) hvertex (.inr rfl)).operandOnly
  · exact (weaves_transformed (by decide) (by decide) hnormal (.inr rfl)).operandOnly
  · exact (weaves_transformed (by decide) (by decide) htangent (.inr rfl)).operandOnly
  · exact (weaves_viewVertex roles limits (List.nil_subset _) (.inr rfl)).operandOnly
  · exact (weaves_transformed (by decide) (by decide) hnormal (.inr rfl)).operandOnly
  · exact (weaves_transformed (by decide) (by decide) htangent (.inr rfl)).operandOnly

/-- The position on the screen draws on the position attribute. -/
lemma weaves_position (roles : Roles) (limits : BoneLimits) (hnames : names ⊆ ["Vertex"])
    (hkept : free ⊆ positionSteps) (hfree : positionSteps ⊆ free ∨ names = []) :
    Weaves (blendedTargets roles) free needs (position roles limits)
      fun id => [.operand id, .draws id names] := by
  rw [position]
  refine .bindFree (.output .position) (fun _ _ _ hname => hname) fun out => ?_
  split
  · refine .bind (.vertexAttribute hnames (isTold_position (.inl rfl) (by decide))) fun vertex => ?_
    refine .bind (.uniform (by decide) (by decide)) fun modelView => ?_
    refine .bind (.uniform (by decide) (by decide)) fun projection => ?_
    refine .bind (.pinsDrawn vertex names rfl (by simp) (by simp) (by simp) (by simp) (by simp))
      fun _ => ?_
    exact .pure (by simp)
  · have hnew : "uProjectionMatrix" ∉ free := fun h => absurd (hkept h) (by decide)
    refine .bindFree (.uniform (by decide) (by decide)) (find?_of_answered
      (fun g => g.answered_uniform "mat4" "uProjectionMatrix" none) hnew) fun projection => ?_
    refine .bind (weaves_viewVertex roles limits hnames hfree) fun vertex => ?_
    refine .bind (.pinsDrawn vertex names rfl (by simp) (by simp) (by simp) (by simp) (by simp))
      fun _ => ?_
    exact .pure (by simp)

/-! ## Varyings -/

/-- The vertex stage knows what the varying of the name carries: geometry, the color of the vertices,
or the texture coordinates of a unit. -/
def IsServed (name : String) : Prop :=
  name ∈ geometryVaryings ∨ ∃ unit : Nat, name = "vTexCoord" ++ toString unit

/-- Varyings begin with a small letter. -/
lemma IsServed.isSmall {name : String} (h : IsServed name) : IsSmall name := by
  rcases h with hmem | ⟨unit, rfl⟩
  · exact (by decide : ∀ name ∈ geometryVaryings, IsSmall name) name hmem
  · exact IsSmall.append (by decide) _

/-- Varyings are on one line. -/
lemma IsServed.isLine {name : String} (h : IsServed name) : IsLine name := by
  rcases h with hmem | ⟨unit, rfl⟩
  · exact (by decide : ∀ name ∈ geometryVaryings, IsLine name) name hmem
  · exact IsLine.append (by decide) (isLine_toString unit)

/-- The name of a varying that carries texture coordinates is that of its attribute behind one
letter. -/
lemma IsServed.texCoordAttribute? {name : String} (h : IsServed name)
    (hmark : Text.occursIn texCoordMark.toList name.toList = true) :
    ∃ unit : Nat, texCoordAttribute? name = some ("TexCoord" ++ toString unit) := by
  rcases h with hmem | ⟨unit, rfl⟩
  · have hnone : ∀ name ∈ geometryVaryings,
        Text.occursIn texCoordMark.toList name.toList = false := by decide
    rw [hnone name hmem] at hmark
    cases hmark
  · exact texCoordAttribute?_of_carried (.texCoord unit) hmark

/-- No varying has the name of a step to the position. -/
lemma IsServed.not_mem_positionSteps {name : String} (h : IsServed name) :
    name ∉ positionSteps := by
  rcases h with hmem | ⟨unit, rfl⟩
  · exact (by decide : ∀ name ∈ geometryVaryings, name ∉ positionSteps) name hmem
  · intro hstep
    have hletters : ∀ step ∈ positionSteps, letters step ≠ letters "vTexCoord" := by decide
    exact texCoord_ne (hletters _ hstep) unit rfl

/-- The varyings that carry geometry or colors are written. -/
lemma weaves_writeVarying (roles : Roles) (limits : BoneLimits) (name : String) {id : NodeId}
    (hid : .operand id ∈ needs) :
    Weaves (blendedTargets roles) free needs (writeVarying roles limits name id) fun _ => [] := by
  have hcolor : ∀ {free : List String} {needs : List VertexFact}, .operand id ∈ needs →
      Weaves (blendedTargets roles) free needs (if name = "vVertexColor" then do
        let enabled ← uniform "float" "uArrayColorEnabled"
        let color ← vertexAttribute "vec4" "Color"
        let _ ← operation (.inlineCode vertexColorCode)
          (Pins.inputs [("venabled", enabled), ("acolor", color)]) (.named [("vcolor", id)])
        else pure ()) fun _ => [] := by
    intro free needs hid
    split
    · refine .bind (.uniform (by decide) (by decide)) fun enabled => ?_
      refine .bind (.vertexAttribute (List.nil_subset _)
        (IsCapital.isTold (by decide) (by decide) (by decide) (by decide))) fun color => ?_
      exact .bind (.pins rfl (by simp) (by simp) (by simp [hid])) fun _ => .pure (by simp)
    · exact .pure (by simp)
  rw [writeVarying]
  split
  next source hsource =>
    refine .bind (weaves_varyingSource hsource) fun value => ?_
    refine .bind (.operation rfl (by simp) (by simp) (by simp [Outputs.targets, hid])) fun _ => ?_
    exact hcolor (by simp [hid])
  next => exact hcolor hid

lemma weaves_writeVaryings (roles : Roles) (limits : BoneLimits)
    {varyings : List (String × NodeId)} (hvaryings : varyings.map (fun e => operand e.2) ⊆ needs) :
    Weaves (blendedTargets roles) free needs (writeVaryings roles limits varyings)
      fun _ => [] := by
  induction varyings generalizing free needs with
  | nil => exact .pure (by simp)
  | cons e varyings ih =>
    obtain ⟨hfirst, hrest⟩ := List.cons_subset.1 hvaryings
    exact .bind (weaves_writeVarying roles limits e.1 hfirst) fun _ =>
      ih (List.Subset.trans hrest (List.subset_append_right _ _))

/-- A varying that carries texture coordinates is written. -/
lemma weaves_writeTexCoord {count : Nat} {name : String} {id : NodeId}
    (hid : .operand id ∈ needs) (hserved : IsServed name) :
    Weaves count free needs (writeTexCoord name id) fun _ => [] := by
  rw [writeTexCoord]
  split
  next hmark =>
    obtain ⟨unit, hattribute⟩ := hserved.texCoordAttribute? hmark
    rw [hattribute]
    refine .bind (.vertexAttribute (List.nil_subset _) (IsCapital.isTold
      (IsCapital.append (by decide) _)
      ⟨IsLine.append (by decide) (isLine_toString unit), by decide⟩
      (not_mem_append_toString (by decide) (by decide) unit) (by decide))) fun coordinates => ?_
    exact .bind (.operation rfl (by simp) (by simp) (by simp [Outputs.targets, hid]))
      fun _ => .pure (by simp)
  next => exact .pure (by simp)

lemma weaves_writeTexCoords {count : Nat} {varyings : List (String × NodeId)}
    (hvaryings : varyings.map (fun e => operand e.2) ⊆ needs)
    (hserved : ∀ e ∈ varyings, IsServed e.1) :
    Weaves count free needs (writeTexCoords varyings) fun _ => [] := by
  induction varyings generalizing free needs with
  | nil => exact .pure (by simp)
  | cons e varyings ih =>
    obtain ⟨hfirst, hrest⟩ := List.cons_subset.1 hvaryings
    obtain ⟨hname, hserved⟩ := List.forall_mem_cons.1 hserved
    exact .bind (weaves_writeTexCoord hfirst hname) fun _ =>
      ih (List.Subset.trans hrest (List.subset_append_right _ _)) hserved

/-- The second root of a vertex graph draws on the position attribute, if the steps to it are free at
first. -/
lemma weaves_build (roles : Roles) (limits : BoneLimits) {varyings : List (String × NodeId)}
    (hvaryings : varyings.map (fun e => operand e.2) ⊆ needs)
    (hserved : ∀ e ∈ varyings, IsServed e.1) (hnames : names ⊆ ["Vertex"])
    (hkept : free ⊆ positionSteps) (hfree : positionSteps ⊆ free ∨ names = []) :
    Weaves (blendedTargets roles) free needs (build roles limits varyings)
      fun ids => ids[1]?.toList.map fun id => draws id names := by
  have hnew : "floatWhite" ∉ free := fun h => absurd (hkept h) (by decide)
  have hleft : ∀ (pointSize one : NodeId) (g : Graph), ∀ name ∈ free, g.find? name = none →
      (operation .setFromNode (.ofNodes [one]) (.single pointSize) g).2.find? name = none := by
    intro pointSize one g name _ hnone
    let wired := (g.insert .setFromNode).2.wireInputs g.size (.ofNodes [one])
    change (wired.wireOutputs g.size (.single pointSize)).registry.find? name = none
    rw [(wired.alters_wireOutputs _ _).registry, (Graph.alters_wireInputs _ _ _).registry]
    exact hnone
  rw [build]
  refine .bindFree (.output .pointSize) (fun _ _ _ hname => hname) fun pointSize => ?_
  refine .bindFree (.constant (by decide)) (find?_of_answered
    (fun g => g.answered_constant "float" "floatWhite" "float(1.0)") hnew) fun one => ?_
  refine .bindFree (.operation rfl (by simp) (by simp) (by simp [Outputs.targets]))
    (hleft pointSize one) fun _ => ?_
  refine .bind (weaves_position roles limits hnames hkept hfree) fun position => ?_
  refine .bind (weaves_writeVaryings roles limits ?_) fun _ => ?_
  · exact fun fact hfact => by simp [hvaryings hfact]
  refine .bind (weaves_writeTexCoords ?_ hserved) fun _ => ?_
  · exact fun fact hfact => by simp [hvaryings hfact]
  exact .bind .programName fun name => .pure (by simp)

/-- A vertex graph has a second root. -/
lemma exists_second_build (roles : Roles) (limits : BoneLimits)
    (varyings : List (String × NodeId)) :
    Answers (build roles limits varyings) fun ids => ∃ id, ids[1]? = some id := by
  rw [build]
  refine .bind (.any _) fun _ _ => .bind (.any _) fun _ _ => .bind (.any _) fun _ _ => ?_
  refine .bind (.any _) fun _ _ => .bind (.any _) fun _ _ => .bind (.any _) fun _ _ => ?_
  exact .bind (.any _) fun _ _ => .pure ⟨_, rfl⟩

end VertexGraph

/-! ## Vertex graphs -/

namespace Graph

/-- The vertex graph that owes a fragment graph its varyings has nothing else. -/
lemma only_vertexFor (fragment : Graph) : fragment.vertexFor.Only fun kind =>
    ∃ v, kind = .var v ∧ v.cls = .varying ∧ v.name ∈ fragment.varyings.map (·.1) := by
  have hfold : ∀ (es : List (String × NodeId)) (g : Graph), es ⊆ fragment.varyings →
      (g.Only fun kind => ∃ v, kind = .var v ∧ v.cls = .varying ∧
        v.name ∈ fragment.varyings.map (·.1)) →
      (es.foldl (Graph.owe fragment) g).Only fun kind => ∃ v, kind = .var v ∧ v.cls = .varying ∧
        v.name ∈ fragment.varyings.map (·.1) := by
    intro es
    induction es with
    | nil => exact fun g _ hg => hg
    | cons e es ih =>
      intro g hes hg
      obtain ⟨he, hrest⟩ := List.cons_subset.1 hes
      refine ih _ hrest ?_
      let v : Variable :=
        { cls := .varying, type := ((fragment.declared? e.2).map (·.type)).getD "", name := e.1 }
      have hnew : ∃ w, NodeKind.var v = .var w ∧ w.cls = .varying ∧
          w.name ∈ fragment.varyings.map (·.1) := ⟨v, rfl, rfl, List.mem_map_of_mem he⟩
      exact (hg.insertVariable hnew).of_kinds fun _ => rfl
  exact hfold fragment.varyings _ (List.Subset.refl _) (only_ofStage _)

/-- It is the graph of a vertex stage. -/
lemma stage_vertexFor (fragment : Graph) : fragment.vertexFor.stage = .vertex := by
  have hfold : ∀ (es : List (String × NodeId)) (g : Graph),
      (es.foldl (Graph.owe fragment) g).stage = g.stage := by
    intro es
    induction es with
    | nil => exact fun g => rfl
    | cons e es ih => exact fun g => ih _
  exact hfold fragment.varyings _

/-- The vertex graph that owes known varyings is woven. -/
lemma woven_vertexFor {fragment : Graph} {count : Nat}
    (hserved : ∀ e ∈ fragment.varyings, VertexGraph.IsServed e.1) :
    fragment.vertexFor.Woven count := by
  have honly := fragment.only_vertexFor
  refine ⟨fragment.stage_vertexFor, fragment.carries_vertexFor.referential, fun id kind hkind => ?_,
    fun id n hn hmorph => ?_⟩
  · obtain ⟨v, rfl, hcls, hname⟩ := honly id kind hkind
    obtain ⟨e, he, hname⟩ := List.mem_map.1 hname
    have hserved := hserved e he
    rw [hname] at hserved
    exact hserved.isSmall.isTold (by rw [hcls]; exact nofun)
      fun _ => ⟨hserved.isLine, fun hother => absurd hcls hother⟩
  · obtain ⟨v, hkind, -⟩ := honly.of_node? hn
    rw [hmorph] at hkind
    cases hkind

/-- Names that are no varyings are free in it. -/
lemma find?_vertexFor {fragment : Graph} {name : String}
    (hname : name ∉ fragment.varyings.map (·.1)) : fragment.vertexFor.find? name = none := by
  by_contra hfound
  obtain ⟨id, hid⟩ := Option.ne_none_iff_exists'.1 hfound
  obtain ⟨v, hv, rfl⟩ := fragment.carries_vertexFor.referential.find? hid
  obtain ⟨n, hn, hdeclared⟩ := Option.bind_eq_some_iff.1 hv
  obtain ⟨w, hkind, -, hmem⟩ := fragment.only_vertexFor.of_node? hn
  rw [hkind] at hdeclared
  cases hdeclared
  exact hname hmem

end Graph

/-- The vertex graph for known varyings is woven, and its second root draws on the position. -/
theorem Roles.woven_vertexGraph (roles : Roles) (limits : BoneLimits) {fragment : Graph}
    (hserved : ∀ e ∈ fragment.varyings, VertexGraph.IsServed e.1) :
    let vertex := roles.vertexGraph limits fragment
    vertex.graph.Woven (VertexGraph.blendedTargets roles) ∧
      ∃ position ∈ vertex.roots, vertex.graph.Draws position "Vertex" := by
  intro vertex
  have hcarries := fragment.carries_vertexFor
  have hnames : ∀ e ∈ fragment.vertexFor.varyings, VertexGraph.IsServed e.1 := by
    intro e he
    obtain ⟨e', he', hname, -⟩ := hcarries.exists_owed he
    exact hname ▸ hserved e' he'
  have hoperands : ∀ fact ∈ fragment.vertexFor.varyings.map (fun e => VertexFact.operand e.2),
      fact.Holds fragment.vertexFor := by
    intro fact hfact
    obtain ⟨e, he, rfl⟩ := List.mem_map.1 hfact
    obtain ⟨v, hv, -⟩ := hcarries.referential.varyings e he
    exact Graph.isSome_operand? (Option.isSome_of_eq_some hv)
  have hfree : ∀ name ∈ VertexGraph.positionSteps, fragment.vertexFor.find? name = none := by
    intro name hname
    refine Graph.find?_vertexFor fun hmem => ?_
    obtain ⟨e, he, rfl⟩ := List.mem_map.1 hmem
    exact (hserved e he).not_mem_positionSteps hname
  obtain ⟨hwoven, -, hgiven⟩ := VertexGraph.weaves_build roles limits
    (List.Subset.refl _) hnames (List.Subset.refl ["Vertex"]) (List.Subset.refl _)
    (.inl (List.Subset.refl _)) fragment.vertexFor (Graph.woven_vertexFor hserved) hfree hoperands
  obtain ⟨position, hposition⟩ :=
    VertexGraph.exists_second_build roles limits fragment.vertexFor.varyings fragment.vertexFor
  refine ⟨hwoven, position, List.mem_of_getElem? hposition, ?_⟩
  refine hgiven (.draws position ["Vertex"]) ?_ "Vertex" List.mem_cons_self
  simp only [hposition]
  exact List.mem_cons_self

end SceneShading
