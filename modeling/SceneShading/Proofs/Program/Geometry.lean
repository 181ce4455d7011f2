import Mathlib.Tactic
import SceneShading.Program.Compile
import SceneShading.Proofs.Graph.Makes

/-!
# Vertex graphs are sound

The vertex graph of a sound fragment graph starts with the varyings of that graph, each under its
name and with its type (`Graph.sound_insertVaryings`). They are roots from then on, so that they may
be written, and they are open (`Graph.Sound.meets_vertexFor`). The builders are judged in the order
of their requests, as those of fragment graphs are: the deformation of each channel, the spaces it is
transformed into, and the varyings that carry it. Every varying is written by one of two passes, and
that closes it.
-/

namespace SceneShading

open Builder NodeFact

variable {roots : List NodeId} {needs : List NodeFact}

namespace VertexGraph

/-! ## Morphing -/

/-- The names of a channel stand for its types, and what is derived from it is shared. -/
structure Channel.Named (c : Channel) : Prop where
  input : HasType .attribute c.input c.type
  target : ∀ i : Nat, HasType .attribute (c.input ++ "_" ++ toString i) (targetType c.input)
  morphed : HasType .temporary c.morphed "vec3" ∧ IsShared c.morphed
  skinned : HasType .temporary c.skinned "vec3" ∧ IsShared c.skinned

/-- A word with a number behind it. -/
lemma hasType_target {word type : String} (hword : (word, type) ∈ words .attribute) (i : Nat) :
    HasType .attribute (word ++ toString i) type := (HasType.of_mem hword).append_toString i

/-- Positions are named well. -/
lemma named_vertexChannel : vertexChannel.Named where
  input := .of_mem (by simp [words, vertexChannel])
  target := hasType_target (by simp [words, vertexChannel, targetType])
  morphed := ⟨.of_mem (by simp [words, vertexChannel]), by decide⟩
  skinned := ⟨.of_mem (by simp [words, vertexChannel]), by decide⟩

/-- Normals are named well. -/
lemma named_normalChannel : normalChannel.Named where
  input := .of_mem (by simp [words, normalChannel])
  target := hasType_target (by simp [words, normalChannel, targetType])
  morphed := ⟨.of_mem (by simp [words, normalChannel]), by decide⟩
  skinned := ⟨.of_mem (by simp [words, normalChannel]), by decide⟩

/-- Tangents are named well. -/
lemma named_tangentChannel : tangentChannel.Named where
  input := .of_mem (by simp [words, tangentChannel])
  target := hasType_target (by simp [words, tangentChannel, targetType])
  morphed := ⟨.of_mem (by simp [words, tangentChannel]), by decide⟩
  skinned := ⟨.of_mem (by simp [words, tangentChannel]), by decide⟩

/-- The pins of targets are named after their places. -/
lemma names_targetPins (input : String) (indices : List Nat) :
    Answers (targetPins input indices) fun pins => pins.map (·.1) = indices.map targetPin := by
  induction indices with
  | nil =>
    rw [targetPins]
    exact .pure rfl
  | cons i indices ih =>
    rw [targetPins]
    refine .bind (.any _) fun id _ => .bind ih fun pins hpins => .pure ?_
    rw [List.map_cons, hpins, List.map_cons]

/-- The targets of a channel can be read. -/
lemma makes_targetPins {c : Channel} (hc : c.Named) (indices : List Nat) {asks : Bool} :
    Makes asks roots needs (targetPins c.input indices) fun pins => readsAll (pins.map (·.2)) := by
  induction indices generalizing needs with
  | nil =>
    rw [targetPins]
    exact .pure (by simp) rfl
  | cons i indices ih =>
    rw [targetPins]
    refine .bind (.vertexAttribute (hc.target i)) fun id => ?_
    refine .bind ih fun pins => ?_
    exact .pure (by simp) rfl

/-- A channel with targets has a first one. -/
lemma mem_range_blendedTargets {roles : Roles} {input : String}
    (h : hasTargets roles input = true) : 0 ∈ List.range (blendedTargets roles) := by
  rw [hasTargets, Option.any_eq_true] at h
  obtain ⟨m, hm, hcount⟩ := h
  have hpos : 0 < m.targetCount := of_decide_eq_true (Bool.and_eq_true_iff.1 hcount).1
  rw [List.mem_range, blendedTargets, hm]
  exact Nat.lt_min.2 ⟨hpos, by decide⟩

/-- A morphed channel can be read. -/
lemma makes_morphed (roles : Roles) {c : Channel} (hc : c.Named) :
    Makes true roots needs (morphed roles c) fun id => [.reads id] := by
  rw [morphed]
  refine .orElse hc.morphed.2 (.lower ?_)
  refine .bind (.vertexAttribute hc.input) fun input => ?_
  split
  next htargets =>
    refine .bindLocal (.localNamed hc.morphed.1 nofun) fun out => ?_
    refine .bind (.uniform (.of_mem (by simp [words]))) fun weights => ?_
    refine .bindAnswer (makes_targetPins hc _) (names_targetPins _ _) fun targets hnames => ?_
    have hfirst : targetPin 0 ∈ targets.map (·.1) := by
      rw [hnames]
      exact List.mem_map_of_mem (mem_range_blendedTargets htargets)
    have hinputs : NodeKind.morph.requiredInputs ⊆
        ([("vertex", input), ("weights", weights)] ++ targets : Pins).map (·.1) := by
      rw [List.map_append]
      refine List.cons_subset.2 ⟨by simp, List.cons_subset.2 ⟨by simp, ?_⟩⟩
      exact List.cons_subset.2 ⟨List.mem_append_right _ hfirst, List.nil_subset _⟩
    refine .write (.pins rfl hinputs (by simp)) rfl (by simp) fun _ => ?_
    exact .pure (by simp) rfl
  · exact .pure (by simp) rfl

/-! ## Skinning -/

/-- The matrix of the bones can be read. -/
lemma makes_boneMatrix (paletteSize : Nat) :
    Makes true roots needs (boneMatrix paletteSize) fun id => [.reads id] := by
  rw [boneMatrix]
  refine .orElse (by decide) (.lower ?_)
  refine .bindLocal (.localNamed (.of_mem (by simp [words])) nofun) fun matrix => ?_
  refine .bind (.vertexAttribute (.of_mem (by simp [words]))) fun weights => ?_
  refine .bind (.vertexAttribute (.of_mem (by simp [words]))) fun bones => ?_
  refine .bind (.uniformArray (.of_mem (by simp [words])) _) fun palette => ?_
  refine .write (.pins rfl (by simp) (by simp)) rfl (by simp) fun _ => ?_
  exact .pure (by simp) rfl

/-- A skinned channel can be read. -/
lemma makes_skinned (roles : Roles) (limits : BoneLimits) {c : Channel} (hc : c.Named) :
    Makes true roots needs (skinned roles limits c) fun id => [.reads id] := by
  rw [skinned]
  refine .orElse hc.skinned.2 ?_
  refine .bind (makes_morphed roles hc) fun input => ?_
  cases roles.skinning with
  | none => exact .pure (by simp) rfl
  | some skin =>
    refine .bind (makes_boneMatrix _) fun matrix => .lower ?_
    refine .bindLocal (.localNamed hc.skinned.1 nofun) fun out => ?_
    refine .write (.pins rfl (by simp) (by simp)) rfl (by simp) fun _ => ?_
    exact .pure (by simp) rfl

/-! ## Local space -/

/-- The deformed position can be read. -/
lemma makes_localVertex (roles : Roles) (limits : BoneLimits) :
    Makes true roots needs (localVertex roles limits) fun id => [.reads id] :=
  makes_skinned roles limits named_vertexChannel

/-- The deformed normal can be read. -/
lemma makes_localNormal (roles : Roles) (limits : BoneLimits) :
    Makes true roots needs (localNormal roles limits) fun id => [.reads id] := by
  rw [localNormal]
  refine .orElse (by decide) ?_
  refine .bind (makes_skinned roles limits named_normalChannel) fun normal => ?_
  refine .bind (.vertexAttribute named_normalChannel.input) fun input => ?_
  split
  · exact .pure (by simp) rfl
  · refine .lower (.bindLocal (.localNamed (.of_mem (by simp [words])) nofun) fun out => ?_)
    refine .write (.pins rfl (by simp) (by simp)) rfl (by simp) fun _ => ?_
    exact .pure (by simp) rfl

/-- The deformed tangent can be read. -/
lemma makes_localTangent (roles : Roles) (limits : BoneLimits) :
    Makes true roots needs (localTangent roles limits) fun id => [.reads id] := by
  rw [localTangent]
  refine .orElse (by decide) ?_
  refine .bind (.vertexAttribute named_tangentChannel.input) fun input => ?_
  refine .bind (makes_skinned roles limits named_tangentChannel) fun tangent => ?_
  split
  · exact .pure (by simp) rfl
  · refine .lower (.bindLocal (.temporary (by decide)) fun normalized => ?_)
    refine .write (.pins rfl (by simp) (by simp)) rfl (by simp) fun _ => ?_
    refine .bindLocal (.localNamed (.of_mem (by simp [words])) nofun) fun out => ?_
    refine .write (.pins rfl (by simp) (by simp)) rfl (by simp) fun _ => ?_
    exact .pure (by simp) rfl

/-! ## Model space and view space -/

/-- A transformed vector can be read. -/
lemma makes_transformed {name type matrix : String} (hname : (name, type) ∈ words .temporary)
    (hshared : IsShared name) (hmatrix : (matrix, "mat4") ∈ words .uniform) (product : MatrixMult)
    {source : Builder NodeId} (hsource : Makes true roots needs source fun id => [.reads id]) :
    Makes true roots needs (transformed name type product matrix source) fun id => [.reads id] := by
  rw [transformed]
  refine .orElse hshared ?_
  refine .bind hsource fun vector => .lower ?_
  refine .bindLocal (.localNamed (.of_mem hname) nofun) fun out => ?_
  refine .bind (.uniform (.of_mem hmatrix)) fun matrix => ?_
  refine .write (.pins rfl (by simp) (by simp)) rfl (by simp) fun _ => ?_
  exact .pure (by simp) rfl

/-- The position in view space can be read. -/
lemma makes_viewVertex (roles : Roles) (limits : BoneLimits) :
    Makes true roots needs (viewVertex roles limits) fun id => [.reads id] := by
  rw [viewVertex]
  exact makes_transformed (by simp [words]) (by decide) (by simp [words]) _
    (makes_localVertex roles limits)

/-- What a varying carries can be read. -/
lemma makes_varyingSource {roles : Roles} {limits : BoneLimits} {name : String}
    {source : Builder NodeId} (h : varyingSource roles limits name = some source) :
    Makes true roots needs source fun id => [.reads id] := by
  have hvertex : Makes true roots needs _ _ := makes_localVertex roles limits
  have hnormal : Makes true roots needs _ _ := makes_localNormal roles limits
  have htangent : Makes true roots needs _ _ := makes_localTangent roles limits
  rw [varyingSource.eq_def] at h
  split at h
  all_goals cases h
  · exact makes_transformed (by simp [words]) (by decide) (by simp [words]) _ hvertex
  · exact makes_transformed (by simp [words]) (by decide) (by simp [words]) _ hnormal
  · exact makes_transformed (by simp [words]) (by decide) (by simp [words]) _ htangent
  · exact makes_viewVertex roles limits
  · exact makes_transformed (by simp [words]) (by decide) (by simp [words]) _ hnormal
  · exact makes_transformed (by simp [words]) (by decide) (by simp [words]) _ htangent

/-! ## Outputs -/

/-- The position of the vertex on the screen is written. -/
lemma makes_position (roles : Roles) (limits : BoneLimits) :
    Makes true roots needs (position roles limits) fun _ => [] := by
  rw [position]
  refine .bind (.output .position) fun out => ?_
  split
  · refine .bind (.vertexAttribute (.of_mem (by simp [words]))) fun vertex => ?_
    refine .bind (.uniform (.of_mem (by simp [words]))) fun modelView => ?_
    refine .bind (.uniform (.of_mem (by simp [words]))) fun projection => ?_
    refine .emit (.pins rfl (by simp) (by simp)) rfl (by simp) (by simp) fun _ => ?_
    exact .pure (by simp) rfl
  · refine .bind (.uniform (.of_mem (by simp [words]))) fun projection => ?_
    refine .bind (makes_viewVertex roles limits) fun vertex => ?_
    refine .emit (.pins rfl (by simp) (by simp)) rfl (by simp) (by simp) fun _ => ?_
    exact .pure (by simp) rfl

/-- The pins of the code that passes the color of a vertex on; it assigns to the varying. -/
lemma pins_vertexColorCode :
    Snippet.pins vertexColorCode = ["vcolor", "venabled", "acolor"] ∧
      "vcolor" ∉ Snippet.exposed vertexColorCode ∧
      "vcolor" ∈ Snippet.assigned vertexColorCode := by
  decide

/-- A name of a varying that carries texture coordinates is that of its attribute behind one letter;
no other name of a varying has the mark of texture coordinates. -/
lemma texCoordAttribute?_of_carried {name type : String} (h : Carried name type)
    (hmark : Text.occursIn texCoordMark.toList name.toList = true) :
    ∃ unit : Nat, texCoordAttribute? name = some ("TexCoord" ++ toString unit) := by
  cases h with
  | texCoord unit =>
    refine ⟨unit, ?_⟩
    have hlist : ("vTexCoord" ++ toString unit).toList =
        'v' :: ("TexCoord" ++ toString unit).toList := by
      rw [String.toList_append, String.toList_append]
      rfl
    rw [texCoordAttribute?, hlist]
    simp only
    rw [if_pos (by decide), String.ofList_toList]
  | _ => exact absurd hmark (by decide)

/-- The varying of a name carries texture coordinates. -/
def carriesTexCoord (name : String) : Bool := Text.occursIn texCoordMark.toList name.toList

/-- The name of a varying that carries texture coordinates has letters of its own. -/
lemma texCoord_ne {name : String} (hname : letters name ≠ letters "vTexCoord") (unit : Nat) :
    "vTexCoord" ++ toString unit ≠ name := by
  rintro rfl
  rw [letters_append, letters_toString, List.append_nil] at hname
  exact hname rfl

/-- No geometry is the source of texture coordinates. -/
lemma varyingSource_texCoord (roles : Roles) (limits : BoneLimits) (unit : Nat) :
    varyingSource roles limits ("vTexCoord" ++ toString unit) = none := by
  rw [varyingSource.eq_def]
  split
  all_goals first | rfl | exact absurd ‹_› (texCoord_ne (by decide) unit)

/-- Texture coordinates are known by their names. -/
lemma carriesTexCoord_texCoord (unit : Nat) :
    carriesTexCoord ("vTexCoord" ++ toString unit) = true := by
  have hlist : ("vTexCoord" ++ toString unit).toList =
      'v' :: ("TexCoord".toList ++ (toString unit).toList) := by
    rw [String.toList_append]
    rfl
  rw [carriesTexCoord, hlist, Text.occursIn]
  rfl

/-- A varying that carries geometry or colors is written and closed; others stay open. -/
lemma serves_writeVarying (roles : Roles) (limits : BoneLimits) {name type : String}
    (h : Carried name type) (id : NodeId) :
    Serves true roots needs [id] (writeVarying roles limits name id) (fun _ => [])
      fun _ => if carriesTexCoord name then [id] else [] := by
  have hgeometry : ∀ source, varyingSource roles limits name = some source →
      name ≠ "vVertexColor" → carriesTexCoord name = false →
      Serves true roots needs [id] (writeVarying roles limits name id) (fun _ => [])
        fun _ => if carriesTexCoord name then [id] else [] := by
    intro source hsource hcolor hmark
    rw [writeVarying, hsource, hmark, if_neg Bool.false_ne_true]
    refine .bind (makes_varyingSource hsource) fun value => ?_
    refine .write (.combine (.inr (.inr rfl)) (by simp)) rfl (by simp) fun _ => ?_
    rw [if_neg hcolor]
    exact .pure (by simp) rfl
  cases h with
  | vertexColor =>
    have hnone : varyingSource roles limits "vVertexColor" = none := rfl
    have hmark : carriesTexCoord "vVertexColor" = false := by decide
    rw [writeVarying, hnone, hmark]
    refine .bind (.uniform (.of_mem (by simp [words]))) fun enabled => ?_
    refine .bind (.vertexAttribute (.of_mem (by simp [words]))) fun color => ?_
    refine .write (.snippet (by decide) (by simp [pins_vertexColorCode])
      (.inl pins_vertexColorCode.2)) rfl (by simp) fun _ => ?_
    exact .pure (by simp) rfl
  | viewNormal => exact hgeometry _ rfl (by decide) (by decide)
  | viewVertex => exact hgeometry _ rfl (by decide) (by decide)
  | modelVertex => exact hgeometry _ rfl (by decide) (by decide)
  | texCoord unit =>
    have hcolor : "vTexCoord" ++ toString unit ≠ "vVertexColor" := texCoord_ne (by decide) unit
    rw [writeVarying, varyingSource_texCoord, if_pos (carriesTexCoord_texCoord unit), if_neg hcolor]
    exact .pure (by simp) rfl

/-- Varyings that carry geometry or colors are written and closed; others stay open. -/
lemma serves_writeVaryings (roles : Roles) (limits : BoneLimits) {varyings : List (String × NodeId)}
    (h : ∀ e ∈ varyings, ∃ type, Carried e.1 type) :
    Serves true roots needs (varyings.map (·.2)) (writeVaryings roles limits varyings)
      (fun _ => []) fun _ => (varyings.filter (carriesTexCoord ·.1)).map (·.2) := by
  induction varyings generalizing needs with
  | nil =>
    rw [writeVaryings]
    exact .pure (by simp) rfl
  | cons e varyings ih =>
    obtain ⟨⟨type, hcarried⟩, hrest⟩ := List.forall_mem_cons.1 h
    rw [writeVaryings]
    refine .bindFirst (serves_writeVarying roles limits hcarried e.2) fun _ => ?_
    cases hmark : carriesTexCoord e.1 with
    | false =>
      rw [List.filter_cons, hmark, if_neg Bool.false_ne_true]
      exact ih hrest
    | true =>
      rw [List.filter_cons, hmark, if_pos rfl]
      -- the varying stays open while the others are written
      exact ((ih hrest).frame [e.2]).perm (List.perm_append_singleton ..).symm
        fun _ => List.perm_append_singleton ..

/-- A varying that carries texture coordinates is written and closed. -/
lemma serves_writeTexCoord {name type : String} (h : Carried name type)
    (hmark : carriesTexCoord name = true) (id : NodeId) :
    Serves true roots needs [id] (writeTexCoord name id) (fun _ => []) fun _ => [] := by
  obtain ⟨unit, hattribute⟩ := texCoordAttribute?_of_carried h hmark
  have hoccurs : Text.occursIn texCoordMark.toList name.toList = true := hmark
  rw [writeTexCoord, if_pos hoccurs, hattribute]
  refine .bind (.vertexAttribute (hasType_texCoord unit)) fun coordinates => ?_
  refine .write (.combine (.inr (.inr rfl)) (by simp)) rfl (by simp) fun _ => ?_
  exact .pure (by simp) rfl

/-- Varyings that carry texture coordinates are written and closed. -/
lemma serves_writeTexCoords {varyings : List (String × NodeId)}
    (h : ∀ e ∈ varyings, ∃ type, Carried e.1 type) :
    Serves true roots needs ((varyings.filter (carriesTexCoord ·.1)).map (·.2))
      (writeTexCoords varyings) (fun _ => []) fun _ => [] := by
  induction varyings generalizing needs with
  | nil =>
    rw [writeTexCoords]
    exact .pure (by simp) rfl
  | cons e varyings ih =>
    obtain ⟨⟨type, hcarried⟩, hrest⟩ := List.forall_mem_cons.1 h
    rw [writeTexCoords]
    cases hmark : carriesTexCoord e.1 with
    | false =>
      have hoccurs : Text.occursIn texCoordMark.toList e.1.toList = false := hmark
      have hskipped : Makes true roots needs (writeTexCoord e.1 e.2) fun _ => [] := by
        rw [writeTexCoord, hoccurs, if_neg Bool.false_ne_true]
        exact .pure (by simp) rfl
      rw [List.filter_cons, hmark, if_neg Bool.false_ne_true]
      exact .bind hskipped fun _ => ih hrest
    | true =>
      rw [List.filter_cons, hmark, if_pos rfl]
      exact .bindFirst (serves_writeTexCoord hcarried hmark e.2) fun _ => ih hrest

/-- The graph of a vertex stage is built, and its varyings are written. -/
lemma serves_build (roles : Roles) (limits : BoneLimits) {varyings : List (String × NodeId)}
    (h : ∀ e ∈ varyings, ∃ type, Carried e.1 type) :
    Serves true roots needs (varyings.map (·.2)) (build roles limits varyings) (fun _ => [])
      fun _ => [] := by
  rw [build]
  refine .bind (.output .pointSize) fun pointSize => ?_
  refine .bind (.constant (.of_mem (by simp [words])) (by decide)) fun one => ?_
  refine .emit (.combine (.inr (.inr rfl)) (by simp)) rfl (by simp) (by simp) fun _ => ?_
  refine .bind (makes_position roles limits) fun position => ?_
  refine .bindAll (serves_writeVaryings roles limits h) fun _ => ?_
  refine .bindAll (serves_writeTexCoords h) fun _ => ?_
  exact .bind (.programName _) fun name => .pure (by simp) rfl

/-- The varyings are among the roots of a vertex stage. -/
lemma varyings_subset_build (roles : Roles) (limits : BoneLimits)
    (varyings : List (String × NodeId)) :
    Answers (build roles limits varyings) fun ids => varyings.map (·.2) ⊆ ids := by
  rw [build]
  refine .bind (.any _) fun _ _ => .bind (.any _) fun _ _ => .bind (.any _) fun _ _ => ?_
  refine .bind (.any _) fun _ _ => .bind (.any _) fun _ _ => .bind (.any _) fun _ _ => ?_
  refine .bind (.any _) fun _ _ => .pure fun id hid => ?_
  exact List.mem_append_left _ (List.mem_append_right _ hid)

end VertexGraph

/-! ## Varyings of the fragment graph -/

namespace Graph

variable {fragment g : Graph} {es : List (String × NodeId)} {e : String × NodeId}

/-- The graph with a varying that a fragment graph asks for. -/
def owe (fragment g : Graph) (e : String × NodeId) : Graph :=
  let type := ((fragment.declared? e.2).map (·.type)).getD ""
  let (id, g) := g.insertVariable { cls := .varying, type, name := e.1 }
  g.addVarying e.1 id

/-- The graph has the varyings that a fragment graph asks for, and nothing else. -/
structure Owes (roots : List NodeId) (fragment : Graph) (es : List (String × NodeId)) (g : Graph) :
    Prop where
  sound : g.Sound roots
  nodes : ∀ id n, g.node? id = some n → ∃ v : Variable, n = { id, kind := .var v } ∧
    v.cls = .varying ∧ (v.name, id) ∈ g.varyings ∧ v.name ∈ es.map (·.1)
  given : ∀ e ∈ es, ∀ v, fragment.declared? e.2 = some v → ∃ id, (e.1, id) ∈ g.varyings ∧
    g.declared? id = some { cls := .varying, type := v.type, name := e.1 }

/-- One more varying is owed. -/
lemma Owes.owe {roots' : List NodeId} (h : Owes roots fragment es g)
    (hfragment : fragment.Sound roots') (he : e ∈ fragment.varyings) (hnew : e.1 ∉ es.map (·.1)) :
    Owes roots fragment (es ++ [e]) (owe fragment g e) := by
  obtain ⟨name, source⟩ := e
  obtain ⟨v, hv, -, rfl, hcarried⟩ := hfragment.varyings _ he
  have hfree : g.find? v.name = none := by
    by_contra hfound
    obtain ⟨id, hid⟩ := Option.ne_none_iff_exists'.1 hfound
    obtain ⟨w, hw, hname⟩ := (h.sound.registered _ id).1 hid
    obtain ⟨n, hn, hdeclared⟩ := Option.bind_eq_some_iff.1 hw
    obtain ⟨u, rfl, -, -, hmem⟩ := h.nodes id n hn
    cases hdeclared
    exact hnew (hname ▸ hmem)
  have hstep : fragment.owe g (v.name, source) =
      (g.insertVariable { cls := .varying, type := v.type, name := v.name }).2.addVarying v.name
        g.size := by
    have hsource : fragment.declared? source = some v := hv
    rw [Graph.owe]
    simp only [hsource]
    rfl
  obtain ⟨hsound, hkind⟩ := h.sound.insertVarying hfree hcarried
  have hnode := node?_insert g (.var { cls := .varying, type := v.type, name := v.name })
  rw [hstep]
  refine ⟨hsound, fun id n hn => ?_, fun e he w hw => ?_⟩
  · have hn' := (hnode id).symm.trans hn
    rw [List.map_append]
    split at hn'
    next hid =>
      cases hn'
      subst hid
      exact ⟨_, rfl, rfl, List.mem_append_right _ List.mem_cons_self,
        List.mem_append_right _ List.mem_cons_self⟩
    next =>
      obtain ⟨u, rfl, hcls, hvarying, hname⟩ := h.nodes id n hn'
      exact ⟨u, rfl, hcls, List.mem_append_left _ hvarying, List.mem_append_left _ hname⟩
  · rcases List.mem_append.1 he with he | he
    · obtain ⟨id, hvarying, hid⟩ := h.given e he w hw
      refine ⟨id, List.mem_append_left _ hvarying, ?_⟩
      exact Grows.declared? (.of_kind? hkind) hid
    · rw [List.mem_singleton.1 he] at hw ⊢
      have hsame : w = v := Option.some.inj (hw.symm.trans hv)
      rw [hsame]
      refine ⟨g.size, List.mem_append_right _ List.mem_cons_self, ?_⟩
      rw [declared?_eq, hkind, if_pos rfl]
      rfl

/-- All varyings are owed, one after another. -/
lemma Owes.foldl {roots' : List NodeId} (hfragment : fragment.Sound roots') {es' : List (String × NodeId)}
    (h : Owes roots fragment es g) (hes : es' ⊆ fragment.varyings)
    (hnodup : ((es ++ es').map (·.1)).Nodup) :
    Owes roots fragment (es ++ es') (es'.foldl (Graph.owe fragment) g) := by
  induction es' generalizing es g with
  | nil =>
    rw [List.append_nil]
    exact h
  | cons e es' ih =>
    obtain ⟨he, hrest⟩ := List.cons_subset.1 hes
    have hnew : e.1 ∉ es.map (·.1) := by
      intro hmem
      rw [List.map_append, List.nodup_append] at hnodup
      exact hnodup.2.2 _ hmem _ (List.mem_map_of_mem List.mem_cons_self) rfl
    rw [List.append_cons] at hnodup ⊢
    exact ih (h.owe hfragment he hnew) hrest hnodup

/-- The vertex graph that owes a sound fragment graph its varyings has them, and nothing else. -/
lemma Sound.owes_vertexFor {roots' : List NodeId} (h : fragment.Sound roots') :
    Owes roots fragment fragment.varyings fragment.vertexFor := by
  have hstart : Owes roots fragment [] (ofStage .vertex) := by
    refine ⟨sound_ofStage roots .vertex, fun id n hn => ?_, by simp⟩
    simp [ofStage, node?] at hn
  exact hstart.foldl h (List.Subset.refl _) h.varyings_nodup

/-- The numbers of varyings are different, since their names are. -/
lemma Sound.varyingIds_nodup (h : g.Sound roots) : (g.varyings.map (·.2)).Nodup := by
  refine List.Nodup.map_on (fun e he e' he' heq => ?_) (List.Nodup.of_map _ h.varyings_nodup)
  obtain ⟨v, hv, -, hname, -⟩ := h.varyings e he
  obtain ⟨v', hv', -, hname', -⟩ := h.varyings e' he'
  rw [← heq, hv, Option.some.injEq] at hv'
  subst hv'
  exact Prod.ext (hname.symm.trans hname') heq

/-- In the vertex graph of a sound fragment graph, the varyings are open, and builders may ask for
shared names. -/
lemma Sound.meets_vertexFor {roots' : List NodeId} (h : fragment.Sound roots') :
    let ids := fragment.vertexFor.varyings.map (·.2)
    fragment.vertexFor.Meets true ids ids [] := by
  intro ids
  have howes : Owes ids fragment fragment.varyings fragment.vertexFor := h.owes_vertexFor
  have hdeclared : ∀ id v, fragment.vertexFor.declared? id = some v →
      v.cls = .varying ∧ (v.name, id) ∈ fragment.vertexFor.varyings := by
    intro id v hv
    obtain ⟨n, hn, hdeclared⟩ := Option.bind_eq_some_iff.1 hv
    obtain ⟨u, rfl, hcls, hvarying, -⟩ := howes.nodes id n hn
    cases hdeclared
    exact ⟨hcls, hvarying⟩
  have hoperation : ∀ id, fragment.vertexFor.operation? id = none := by
    intro id
    rw [operation?, Option.bind_eq_none_iff]
    intro n hn
    obtain ⟨u, rfl, -⟩ := howes.nodes id n hn
    rfl
  have hreads : ∀ i id, ¬fragment.vertexFor.Reads i id := by
    rintro i id ⟨o, ho, -⟩
    rw [hoperation] at ho
    cases ho
  have hwrites : ∀ i id, ¬fragment.vertexFor.Writes i id := by
    rintro i id ⟨o, ho, -⟩
    rw [hoperation] at ho
    cases ho
  refine ⟨howes.sound, ⟨howes.sound.varyingIds_nodup, fun id n hn _ i => ?_, fun id hid => ?_,
    fun id _ i => hreads i id, fun id v hv _ => .inl ?_, fun i j id hi => absurd hi (hreads i id),
    fun id v hv _ => (hdeclared id v hv).2⟩, fun _ id _ v hv => ?_, by simp⟩
  · obtain ⟨u, rfl, -⟩ := howes.nodes id n hn
    exact iff_of_false List.not_mem_nil (hwrites i id)
  · obtain ⟨e, he, rfl⟩ := List.mem_map.1 hid
    obtain ⟨v, hv, hcls, -⟩ := howes.sound.varyings e he
    exact ⟨v, hv, .inr ⟨hcls, hid⟩⟩
  · exact List.mem_map_of_mem (hdeclared id v hv).2
  · obtain ⟨w, hw, -, -, hcarried⟩ := howes.sound.varyings _ (hdeclared id v hv).2
    rw [hv] at hw
    cases hw
    exact hcarried.not_isShared

end Graph

/-- The vertex graph of roles for a sound fragment graph is sound, with the roots that it is compiled
from. It has a flow where nothing is open, and it keeps the varyings that it owes. -/
lemma Roles.sound_vertexGraph (roles : Roles) (limits : BoneLimits) {fragment : Graph}
    (h : fragment.Sound []) :
    let vertex := roles.vertexGraph limits fragment
    vertex.graph.Sound vertex.roots ∧
      vertex.graph.Flow (fragment.vertexFor.varyings.map (·.2)) [] ∧
      fragment.vertexFor.Grows vertex.graph ∧
      fragment.vertexFor.varyings.map (·.2) ⊆ vertex.roots := by
  intro vertex
  have hvaryings : fragment.vertexFor.varyings.map (·.2) ⊆ vertex.roots :=
    VertexGraph.varyings_subset_build roles limits fragment.vertexFor.varyings fragment.vertexFor
  have hstart := h.meets_vertexFor
  have hcarried : ∀ e ∈ fragment.vertexFor.varyings, ∃ type, Carried e.1 type := by
    intro e he
    obtain ⟨v, -, -, hname, hcarried⟩ := hstart.sound.varyings e he
    exact ⟨v.type, hname ▸ hcarried⟩
  obtain ⟨hmade, hlater⟩ := VertexGraph.serves_build roles limits hcarried _ []
    (by rwa [List.append_nil])
  exact ⟨hmade.sound.mono hvaryings, hmade.flow, hlater.grows, hvaryings⟩

end SceneShading
