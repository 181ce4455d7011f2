import Mathlib.Tactic
import SceneShading.Proofs.Graph.Walk

/-!
# What a walk reaches

A walk is a depth-first search: it lists the nodes that its roots reach along inputs, and no other
ones, and an input stands before its node unless the two lie on a circle
(`Graph.isPostOrder_traverse`). That nothing is missing and the order are facts about `Walk.Extends`
and `Graph.Ordered`; here it is added that nothing is listed without reason (`Graph.reaches_visit`),
and that the bound on the depth is never met (`Graph.visit_of_le`).
-/

namespace SceneShading

namespace Graph

open Walk

variable {g : Graph} {w : Walk} {id other : NodeId} {roots : List NodeId}

/-! ## Depth -/

/-- More fuel than there are nodes that were not entered makes no difference. -/
lemma visit_of_le {fuel fuel' : Nat} (hfuel : unentered g w < fuel) (hle : fuel ≤ fuel') :
    g.visit fuel' id w = g.visit fuel id w := by
  induction fuel generalizing fuel' id w with
  | zero => exact absurd hfuel (Nat.not_lt_zero _)
  | succ fuel ih =>
    obtain ⟨fuel', rfl⟩ := Nat.exists_eq_add_of_le hle
    rw [Nat.add_right_comm, visit, visit]
    cases hnode : g.node? id with
    | none => rfl
    | some n =>
      simp only
      split
      next => rfl
      next hmem =>
        have hnew : id ∉ w.entered := fun h => hmem (List.contains_iff_mem.2 h)
        have hsize : id < g.size := (Array.getElem?_eq_some_iff.1 hnode).1
        -- the inputs are visited one after another, and each visit starts with one node less
        have hfold : ∀ (inputs : List NodeId) (w' : Walk), (w.enter id).entered ⊆ w'.entered →
            inputs.foldl (fun w input => g.visit (fuel + fuel') input w) w' =
              inputs.foldl (fun w input => g.visit fuel input w) w' := by
          intro inputs
          induction inputs with
          | nil => exact fun w' _ => rfl
          | cons input inputs ihinputs =>
            intro w' hw'
            have hless : unentered g w' < fuel := by
              have hless := unentered_enter (g := g) hsize hnew
              have hle := unentered_le (g := g) hw'
              omega
            have hextends := (g.visits_visit fuel input w' hless).1
            rw [List.foldl_cons, List.foldl_cons, ih hless (Nat.le_add_right _ _)]
            exact ihinputs _ (List.Subset.trans hw' hextends.entered)
        rw [hfold _ _ (List.Subset.refl _)]

/-! ## Reach -/

/-- What an existing node reaches was reached from an existing node. -/
lemma isSome_of_reaches (h : g.Reaches id other) (hother : (g.node? other).isSome) :
    (g.node? id).isSome := by
  induction h using Relation.ReflTransGen.head_induction_on with
  | refl => exact hother
  | head hedge _ _ =>
    obtain ⟨n, hn, -⟩ := hedge
    rw [hn, Option.isSome_some]

/-- What was entered during a visit exists, and the visited node reaches it. -/
lemma reaches_visit {fuel : Nat} (hother : other ∈ (g.visit fuel id w).entered) :
    other ∈ w.entered ∨ ((g.node? other).isSome ∧ g.Reaches id other) := by
  induction fuel generalizing id w with
  | zero => exact .inl hother
  | succ fuel ih =>
    rw [visit] at hother
    cases hnode : g.node? id with
    | none =>
      rw [hnode] at hother
      exact .inl hother
    | some n =>
      rw [hnode] at hother
      simp only at hother
      split at hother
      next => exact .inl hother
      next =>
        have hfold : ∀ (inputs : List NodeId) (w' : Walk), inputs ⊆ n.inputNodes →
            other ∈ (inputs.foldl (fun w input => g.visit fuel input w) w').entered →
              other ∈ w'.entered ∨ ((g.node? other).isSome ∧ g.Reaches id other) := by
          intro inputs
          induction inputs with
          | nil => exact fun w' _ h => .inl h
          | cons input inputs ihinputs =>
            intro w' hinputs h
            obtain ⟨hinput, hrest⟩ := List.cons_subset.1 hinputs
            rcases ihinputs _ hrest h with hentered | hreached
            · refine (ih hentered).imp_right fun hreaches => ⟨hreaches.1, ?_⟩
              exact .head ⟨n, hnode, hinput⟩ hreaches.2
            · exact .inr hreached
        rcases hfold _ (w.enter id) (List.filter_subset_self _) hother with hentered | hreached
        · rcases List.mem_cons.1 hentered with rfl | hentered
          · exact .inr ⟨by rw [hnode, Option.isSome_some], .refl⟩
          · exact .inl hentered
        · exact .inr hreached

/-- What a walk enters exists, and one of its roots reaches it. -/
lemma reaches_walk (h : id ∈ (g.walk roots).entered) :
    (g.node? id).isSome ∧ ∃ root ∈ roots, g.Reaches root id := by
  have hfold : ∀ (roots : List NodeId) (w : Walk),
      id ∈ (roots.foldl (fun w root => g.visit (g.size + 1) root w) w).entered →
        id ∈ w.entered ∨ ((g.node? id).isSome ∧ ∃ root ∈ roots, g.Reaches root id) := by
    intro roots
    induction roots with
    | nil => exact fun w h => .inl h
    | cons root roots ih =>
      intro w h
      rcases ih _ h with hentered | ⟨hsome, other, hother, hreaches⟩
      · refine (reaches_visit hentered).imp_right fun hreached => ?_
        exact ⟨hreached.1, root, List.mem_cons_self, hreached.2⟩
      · exact .inr ⟨hsome, other, List.mem_cons_of_mem _ hother, hreaches⟩
  exact (hfold roots {} h).resolve_left List.not_mem_nil

/-- A walk lists what its roots reach. -/
lemma mem_traverse_of_reaches {root : NodeId} (hroot : root ∈ roots) (h : g.Reaches root id)
    (hid : (g.node? id).isSome) : id ∈ g.traverse roots := by
  induction h with
  | refl => exact mem_traverse_of_root hroot hid
  | tail _ hedge ih =>
    obtain ⟨n, hn, hinput⟩ := hedge
    exact mem_traverse_of_input (ih (by rw [hn, Option.isSome_some])) hn hinput hid

/-! ## Order -/

/-- No inputs lead from a node through another one back to it. -/
def Acyclic (g : Graph) : Prop :=
  ∀ id n, g.node? id = some n → ∀ input ∈ n.inputNodes, input ≠ id → ¬g.Reaches input id

/-- The list is what a depth-first search from the roots makes of the graph. -/
structure IsPostOrder (g : Graph) (roots order : List NodeId) : Prop where
  nodup : order.Nodup
  /-- It has the nodes that existing roots reach. -/
  mem_iff : ∀ id, id ∈ order ↔
    (g.node? id).isSome ∧ ∃ root ∈ roots, (g.node? root).isSome ∧ g.Reaches root id
  /-- Inputs come first, unless they lead back. -/
  inputs : ∀ before id after, order = before ++ id :: after → ∀ n, g.node? id = some n →
    ∀ input ∈ n.inputNodes, (g.node? input).isSome → input ≠ id →
      input ∈ before ∨ g.Reaches input id
  /-- Without circles inputs come first. -/
  topological : g.Acyclic → ∀ before id after, order = before ++ id :: after → ∀ n,
    g.node? id = some n → ∀ input ∈ n.inputNodes, (g.node? input).isSome → input ≠ id →
      input ∈ before

/-- **A walk is a depth-first search.** Whatever graph and roots it is given, it lists the nodes that
the existing roots reach, each once, and each behind its inputs unless these lead back to it. A bound
on its depth that is greater than the number of nodes makes no difference. -/
theorem isPostOrder_traverse (g : Graph) (roots : List NodeId) :
    g.IsPostOrder roots (g.traverse roots) ∧
      ∀ depth, g.traverse roots =
        (roots.foldl (fun w root => g.visit (g.size + 1 + depth) root w) {}).order := by
  have hinputs : ∀ before id after, g.traverse roots = before ++ id :: after → ∀ n,
      g.node? id = some n → ∀ input ∈ n.inputNodes, (g.node? input).isSome → input ≠ id →
        input ∈ before ∨ g.Reaches input id :=
    fun before id after hsplit n hn input hinput hsome _ =>
      g.ordered_traverse roots before id after hsplit id List.mem_cons_self n hn input hinput hsome
  refine ⟨⟨g.nodup_traverse roots, fun id => ⟨fun hid => ?_, ?_⟩, hinputs, ?_⟩, fun depth => ?_⟩
  · have hentered : id ∈ (g.walk roots).entered :=
      ((g.extends_walk roots).1.once ⟨List.nodup_nil, List.Subset.refl _⟩).2 hid
    obtain ⟨hsome, root, hroot, hreaches⟩ := reaches_walk hentered
    exact ⟨hsome, root, hroot, isSome_of_reaches hreaches hsome, hreaches⟩
  · rintro ⟨hsome, root, hroot, -, hreaches⟩
    exact mem_traverse_of_reaches hroot hreaches hsome
  · intro hacyclic before id after hsplit n hn input hinput hsome hne
    refine (hinputs before id after hsplit n hn input hinput hsome hne).resolve_right ?_
    exact hacyclic id n hn input hinput hne
  · rw [traverse, walk]
    congr 2
    funext w root
    exact (visit_of_le (unentered_lt g w) (Nat.le_add_right _ _)).symm

end Graph

end SceneShading
