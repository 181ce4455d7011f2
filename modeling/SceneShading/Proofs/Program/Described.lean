import Mathlib.Tactic
import SceneShading.Description.Build
import SceneShading.Program.Generator
import SceneShading.Proofs.Graph.Rewiring
import SceneShading.Proofs.Program.Geometry

/-!
# Programs of descriptions

A description can ask for anything: any names, any wiring, references that lead nowhere. Its graph
still refers to nothing missing (`Description.whole_build`), since it is wired by the numbers of the
nodes that were created. The vertex graph is built on the varyings of that graph, and whatever their
names are, it refers to nothing missing either (`VertexGraph.keeps_build`), with one exception: the
name of a varying that carries texture coordinates loses its first byte, which is no character of its
own in every name (`VertexGraph.IsCut`).
-/

namespace SceneShading

variable {g g' g'' : Graph} {id : NodeId} {α β : Type}

/-- Every number in the graph and every root is the number of a node, and every request was
answered. -/
structure RootedGraph.Whole (s : RootedGraph) : Prop where
  referential : s.graph.Referential
  roots : ∀ id ∈ s.roots, id < s.graph.size
  fault : s.graph.fault = none

/-! ## Creating nodes -/

namespace Graph

/-- A node of a described type is created, or found under its name, or reported. -/
lemma Referential.createNode (h : g.Referential) (catalogue : Catalogue) (nodeType : String)
    (args : List NodeArg) :
    (g.createNode catalogue nodeType args).2.Referential ∧
      g.Builds (g.createNode catalogue nodeType args).2 ∧
        ∀ id, (g.createNode catalogue nodeType args).1 = .ok id →
          id < (g.createNode catalogue nodeType args).2.size := by
  have hcreated := g.createAnswered_createNode catalogue nodeType args
  generalize g.createNode catalogue nodeType args = created at hcreated ⊢
  cases hcreated with
  | refused _ hquiet => exact ⟨hquiet.referential h, hquiet.builds, fun id hid => by cases hid⟩
  | answered _ ha =>
    obtain ⟨hreferential, hbuilds, hoperand⟩ := h.answered ha
    refine ⟨hreferential, hbuilds, ?_⟩
    rintro id ⟨⟩
    exact lt_size_of_operand? hoperand
  | inserted _ _ hquiet =>
    refine ⟨(hquiet.referential h).insert _, hquiet.builds.trans (builds_insert _ _), ?_⟩
    rintro id ⟨⟩
    exact size_lt_size_insert _ _

end Graph

namespace Description

open SceneShading.Graph

/-- The graph refers to nothing missing and has no fault, and the identifiers are those of nodes. -/
structure Created (s : BuiltIds × Graph) : Prop where
  referential : s.2.Referential
  fault : s.2.fault = none
  ids : ∀ e ∈ s.1, e.2 < s.2.size

lemma created_ofStage (stage : Stage) : Created ([], ofStage stage) :=
  ⟨referential_ofStage stage, rfl, by simp⟩

/-- The same whether or not the graph may be asked for undeclared varyings. -/
lemma created_empty (stage : Stage) (customFragment : Bool) :
    Created ([], { ofStage stage with customFragment }) :=
  have h := referential_ofStage stage
  ⟨⟨h.inputs, h.outputs, h.registry, h.varyings⟩, rfl, List.forall_mem_nil _⟩

/-- One more node is created. -/
lemma Created.step {s : BuiltIds × Graph} (h : Created s) (catalogue : Catalogue)
    (n : NodeDescription) : Created (createStep catalogue s n) := by
  obtain ⟨hreferential, hbuilds, hid⟩ := h.referential.createNode catalogue n.nodeType n.args
  have hsize := hbuilds.grows.size_le
  unfold createStep
  generalize s.2.createNode catalogue n.nodeType n.args = result at *
  obtain ⟨answer, g'⟩ := result
  cases answer with
  | error d =>
    have hreported := g'.quiet_report d
    exact ⟨hreported.referential hreferential, hbuilds.fault.trans h.fault,
      fun e he => (h.ids e he).trans_le hsize⟩
  | ok id =>
    refine ⟨hreferential, hbuilds.fault.trans h.fault, fun e he => ?_⟩
    rcases List.mem_cons.1 he with rfl | he
    · exact hid id rfl
    · exact (h.ids e he).trans_le hsize

/-- All nodes are created. -/
lemma created_createNodes (d : Description) (catalogue : Catalogue) {g : Graph}
    (h : Created ([], g)) : Created (d.createNodes catalogue g) := by
  have hfold : ∀ (nodes : List NodeDescription) (s : BuiltIds × Graph), Created s →
      Created (nodes.foldl (createStep catalogue) s) := by
    intro nodes
    induction nodes with
    | nil => exact fun s hs => hs
    | cons n nodes ih => exact fun s hs => ih _ (hs.step catalogue n)
  exact hfold d.nodes _ h

/-! ## Resolving references -/

/-- What a reference stands for, if anything, has the property, and resolving it leaves at most a
problem. -/
def Finds (resolve : Graph → α → Option β × Graph) (p : β → Prop) : Prop :=
  ∀ g a, Quiet g (resolve g a).2 ∧ ∀ b, (resolve g a).1 = some b → p b

/-- References are resolved one after another. -/
lemma Finds.each {resolve : Graph → α → Option β × Graph} {p : β → Prop} (h : Finds resolve p)
    (g : Graph) (xs : List α) :
    Quiet g (resolveEach resolve g xs).2 ∧ ∀ b ∈ (resolveEach resolve g xs).1, p b := by
  have hfold : ∀ (found : List β) (g : Graph), (∀ b ∈ found, p b) →
      let s := xs.foldl (fun (s : List β × Graph) x =>
        (s.1 ++ (resolve s.2 x).1.toList, (resolve s.2 x).2)) (found, g)
      Quiet g s.2 ∧ ∀ b ∈ s.1, p b := by
    induction xs with
    | nil => exact fun found g hfound => ⟨.refl g, hfound⟩
    | cons x xs ih =>
      intro found g hfound
      obtain ⟨hquiet, hp⟩ := h g x
      obtain ⟨hrest, hall⟩ := ih (found ++ (resolve g x).1.toList) (resolve g x).2 fun b hb => by
        rcases List.mem_append.1 hb with hb | hb
        · exact hfound b hb
        · exact hp b (Option.mem_toList.1 hb)
      exact ⟨hquiet.trans hrest, hall⟩
  exact hfold [] g (by simp)

/-- References are resolved with their pins. -/
lemma Finds.pins {resolve : Graph → String → Option β × Graph} {p : β → Prop}
    (h : Finds resolve p) (g : Graph) (pins : PinMap) :
    Quiet g (resolvePins resolve g pins).2 ∧ ∀ e ∈ (resolvePins resolve g pins).1, p e.2 := by
  have hpinned : Finds (fun g (e : String × String) =>
      ((resolve g e.2).1.map (e.1, ·), (resolve g e.2).2)) (fun e : String × β => p e.2) := by
    intro g e
    obtain ⟨hquiet, hp⟩ := h g e.2
    refine ⟨hquiet, fun b hb => ?_⟩
    obtain ⟨c, hc, rfl⟩ := Option.map_eq_some_iff.1 hb
    exact hp c hc
  exact hpinned.each g pins.entries

variable {ids : BuiltIds} {size : Nat}

/-- What is looked up is one of the identifiers. -/
lemma lt_of_lookup {id : NodeId} {reference : String} (hids : ∀ e ∈ ids, e.2 < size)
    (h : ids.lookup reference = some id) : id < size := by
  obtain ⟨front, back, hentries, -⟩ := List.lookup_eq_some_iff.1 h
  exact hids (reference, id) (hentries ▸ List.mem_append_right _ List.mem_cons_self)

/-- A source is a literal or one of the identifiers. -/
lemma finds_source (hids : ∀ e ∈ ids, e.2 < size) (node : String) :
    Finds (resolveSource ids node) fun s => ∀ id, s.node? = some id → id < size := by
  intro g reference
  unfold resolveSource
  split
  next text _ => exact ⟨.refl g, by rintro b ⟨⟩ id ⟨⟩⟩
  next =>
    split
    next id hid =>
      refine ⟨.refl g, ?_⟩
      rintro b ⟨⟩ id ⟨⟩
      exact lt_of_lookup hids hid
    next => exact ⟨g.quiet_report _, by rintro b ⟨⟩⟩

/-- A target is one of the identifiers. -/
lemma finds_target (hids : ∀ e ∈ ids, e.2 < size) (node : String) :
    Finds (resolveTarget ids node) fun target => target < size := by
  intro g reference
  obtain ⟨hquiet, hsource⟩ := finds_source hids node g reference
  unfold resolveTarget
  generalize resolveSource ids node g reference = result at *
  obtain ⟨_ | source, g'⟩ := result
  · exact ⟨hquiet, by rintro b ⟨⟩⟩
  · cases source with
    | node id =>
      refine ⟨hquiet, ?_⟩
      rintro b ⟨⟩
      exact hsource _ rfl id rfl
    | literal text => exact ⟨hquiet.trans (g'.quiet_report _), by rintro b ⟨⟩⟩

/-- The inputs of a node are literals and identifiers. -/
lemma finds_inputs (hids : ∀ e ∈ ids, e.2 < size) (node : String) :
    Finds (resolveInputs ids node) fun inputs => ∀ id ∈ inputs.nodes, id < size := by
  have hsource := finds_source hids node
  intro g references
  cases references with
  | single reference =>
    obtain ⟨hquiet, hfound⟩ := hsource g reference
    refine ⟨hquiet, fun inputs hinputs id hid => ?_⟩
    obtain ⟨source, hs, rfl⟩ := Option.map_eq_some_iff.1 hinputs
    obtain ⟨s, hmem, hnode⟩ := List.mem_filterMap.1 hid
    rw [List.mem_singleton.1 hmem] at hnode
    exact hfound source hs id hnode
  | positional references =>
    obtain ⟨hquiet, hfound⟩ := hsource.each g references
    refine ⟨hquiet, ?_⟩
    rintro inputs ⟨⟩ id hid
    obtain ⟨s, hmem, hnode⟩ := List.mem_filterMap.1 hid
    exact hfound s hmem id hnode
  | named pins =>
    obtain ⟨hquiet, hfound⟩ := hsource.pins g pins
    refine ⟨hquiet, ?_⟩
    rintro inputs ⟨⟩ id hid
    obtain ⟨e, hmem, hnode⟩ := List.mem_filterMap.1 hid
    exact hfound e hmem id hnode

/-- The outputs of a node are identifiers. -/
lemma finds_outputs (hids : ∀ e ∈ ids, e.2 < size) (node : String) :
    Finds (resolveOutputs ids node) fun outputs => ∀ target ∈ outputs.targets, target < size := by
  have htarget := finds_target hids node
  have hsingle : ∀ (g : Graph) (reference : String) (outputs : Outputs),
      (resolveTarget ids node g reference).1.map Outputs.single = some outputs →
        ∀ target ∈ outputs.targets, target < size := by
    intro g reference outputs houtputs target hmem
    obtain ⟨id, hid, rfl⟩ := Option.map_eq_some_iff.1 houtputs
    rw [List.mem_singleton.1 hmem]
    exact (htarget g reference).2 id hid
  intro g references
  cases references with
  | single reference => exact ⟨(htarget g reference).1, hsingle g reference⟩
  | positional references =>
    cases references with
    | nil => exact ⟨.refl g, by rintro b ⟨⟩⟩
    | cons first rest =>
      have hnoted := g.quiet_noteIf (!rest.isEmpty) (.severalOutputs node first)
      exact ⟨hnoted.trans (htarget _ first).1, hsingle _ first⟩
  | named pins =>
    obtain ⟨hquiet, hfound⟩ := htarget.pins g pins
    refine ⟨hquiet, ?_⟩
    rintro outputs ⟨⟩ target hmem
    obtain ⟨e, he, rfl⟩ := List.mem_map.1 hmem
    exact hfound e he

/-- An optional part of a node is resolved. -/
lemma Finds.optional {resolve : Graph → α → Option β × Graph} {p : β → Prop}
    (h : Finds resolve p) (g : Graph) (a : Option α) :
    Quiet g (resolveOptional resolve g a).2 ∧
      ∀ b, (resolveOptional resolve g a).1 = some b → p b := by
  cases a with
  | none => exact ⟨.refl g, by rintro b ⟨⟩⟩
  | some a => exact h g a

/-- A root is one of the identifiers. -/
lemma finds_root (hids : ∀ e ∈ ids, e.2 < size) :
    Finds (resolveRoot ids) fun root => root < size := by
  intro g root
  unfold resolveRoot
  split
  next id hid =>
    refine ⟨.refl g, ?_⟩
    rintro b ⟨⟩
    exact lt_of_lookup hids hid
  next => exact ⟨g.quiet_report _, by rintro b ⟨⟩⟩

/-! ## Wiring -/

/-- One node is wired. -/
lemma rewired_wireStep {g : Graph} (h : g.Referential) (hids : ∀ e ∈ ids, e.2 < g.size)
    (n : NodeDescription) : Rewired g (wireStep ids g n) := by
  unfold wireStep
  split
  next => exact ⟨h, .refl g⟩
  next id hid =>
    have hlt : id < g.size := lt_of_lookup hids hid
    obtain ⟨hquiet, hinputs⟩ := (finds_inputs hids n.id).optional g n.inputs
    generalize resolveOptional (resolveInputs ids n.id) g n.inputs = inputs at hquiet hinputs
    obtain ⟨inputs, g₁⟩ := inputs
    dsimp only
    obtain ⟨hquiet', houtputs⟩ := (finds_outputs hids n.id).optional g₁ n.outputs
    generalize resolveOptional (resolveOutputs ids n.id) g₁ n.outputs = outputs at hquiet' houtputs
    obtain ⟨outputs, g₂⟩ := outputs
    dsimp only
    have hresolved : Rewired g g₂ := (hquiet.trans hquiet').rewired h
    have hwired : Rewired g (inputs.elim g₂ (g₂.wireInputs id)) := by
      cases inputs with
      | none => exact hresolved
      | some inputs =>
        have hsize := hresolved.rewires.size_eq
        exact hresolved.trans (hresolved.referential.wireInputs (hsize ▸ hlt)
          fun input hinput => hsize ▸ hinputs inputs rfl input hinput)
    generalize inputs.elim g₂ (g₂.wireInputs id) = g₃ at hwired
    have hlinked : Rewired g (outputs.elim g₃ (g₃.wireOutputs id)) := by
      cases outputs with
      | none => exact hwired
      | some outputs =>
        have hsize := hwired.rewires.size_eq
        exact hwired.trans (hwired.referential.wireOutputs (hsize ▸ hlt)
          fun target htarget => hsize ▸ houtputs outputs rfl target htarget)
    generalize outputs.elim g₃ (g₃.wireOutputs id) = g₄ at hlinked
    cases n.comment with
    | none => exact hlinked
    | some text =>
      exact hlinked.trans
        (hlinked.referential.setComment (hlinked.rewires.size_eq ▸ hlt) text)

/-- All nodes are wired, one after another. -/
lemma rewired_wireSteps {g : Graph} (h : g.Referential) (hids : ∀ e ∈ ids, e.2 < g.size)
    (nodes : List NodeDescription) : Rewired g (nodes.foldl (wireStep ids) g) := by
  induction nodes generalizing g with
  | nil => exact ⟨h, .refl g⟩
  | cons n nodes ih =>
    have hfirst := rewired_wireStep h hids n
    exact hfirst.trans (ih hfirst.referential fun e he => hfirst.rewires.size_eq ▸ hids e he)

/-- A graph that is built is the graph of the created nodes, after wiring. -/
lemma rewired_build (d : Description) (catalogue : Catalogue) {g : Graph} (h : Created ([], g)) :
    Rewired (d.createNodes catalogue g).2 (d.build catalogue g).2 ∧
      ∀ id ∈ (d.build catalogue g).1, id < (d.build catalogue g).2.size := by
  have hcreated := d.created_createNodes catalogue h
  unfold build
  generalize d.createNodes catalogue g = s at hcreated
  obtain ⟨ids, g'⟩ := s
  have hwired := rewired_wireSteps hcreated.referential hcreated.ids d.nodes
  obtain ⟨hquiet, hroots⟩ :=
    (finds_root hcreated.ids).each (d.nodes.foldl (wireStep ids) g') d.roots
  have hall := hwired.trans (hquiet.rewired hwired.referential)
  exact ⟨hall, fun id hid => hall.rewires.size_eq ▸ hroots id hid⟩

/-- The described graph is the graph of the created nodes, after wiring. -/
lemma rewired_describedGraph (ctx : Context) (d : Description) :
    Rewired (d.createNodes ctx.catalogue (ofStage .fragment)).2 (ctx.describedGraph d).graph ∧
      ∀ id ∈ (ctx.describedGraph d).roots, id < (ctx.describedGraph d).graph.size :=
  d.rewired_build ctx.catalogue (created_ofStage .fragment)

/-- **A described graph refers to nothing missing**, whatever the description asks for. -/
theorem whole_describedGraph (ctx : Context) (d : Description) : (ctx.describedGraph d).Whole := by
  have hcreated := d.created_createNodes ctx.catalogue (created_ofStage .fragment)
  obtain ⟨hwired, hroots⟩ := rewired_describedGraph ctx d
  exact ⟨hwired.referential, hroots, hwired.rewires.fault.trans hcreated.fault⟩

end Description

end SceneShading
