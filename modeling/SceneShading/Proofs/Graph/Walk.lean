import Mathlib.Tactic
import SceneShading.Graph.Traverse

/-!
# What a walk lists

A walk lists every node once, it lists the roots that exist, and with a node it lists all inputs of
that node that exist. The first is an invariant of the walk. For the others, the walk after a visit
extends the walk before it (`Walk.Extends`): what was entered in between was also left, and all that
it leads to was entered. A visit has enough fuel if it has more than there are nodes that were not
entered yet, since it enters one of them before it goes down.
-/

namespace SceneShading

variable {g : Graph} {w w' w'' : Walk} {id : NodeId}

namespace Walk

/-- A walk after another one in the same graph: nothing is forgotten, only what was not entered
before is left anew, what was entered anew was left, and it leads to what was entered. A walk that
listed only what it entered, and that once, still does. -/
structure Extends (g : Graph) (w w' : Walk) : Prop where
  entered : w.entered ⊆ w'.entered
  order : w.order ⊆ w'.order
  fresh : ∀ id ∈ w'.order, id ∈ w.order ∨ id ∉ w.entered
  left : ∀ id ∈ w'.entered, id ∈ w.entered ∨ id ∈ w'.order
  closed : ∀ id ∈ w'.order, id ∈ w.order ∨ ∀ n, g.node? id = some n →
    ∀ input ∈ n.inputNodes, (g.node? input).isSome → input ∈ w'.entered
  once : w.order.Nodup ∧ w.order ⊆ w.entered → w'.order.Nodup ∧ w'.order ⊆ w'.entered

/-- Nothing happened. -/
lemma Extends.refl (g : Graph) (w : Walk) : Extends g w w :=
  ⟨List.Subset.refl _, List.Subset.refl _, fun _ h => .inl h, fun _ h => .inl h, fun _ h => .inl h,
    fun h => h⟩

/-- One part of a walk after another. -/
lemma Extends.trans (h : Extends g w w') (h' : Extends g w' w'') : Extends g w w'' := by
  refine ⟨List.Subset.trans h.entered h'.entered, List.Subset.trans h.order h'.order,
    fun id hid => ?_, fun id hid => ?_, fun id hid => ?_, fun honce => h'.once (h.once honce)⟩
  · rcases h'.fresh id hid with hid | hid
    · exact h.fresh id hid
    · exact .inr fun hmem => hid (h.entered hmem)
  · rcases h'.left id hid with hid | hid
    · exact (h.left id hid).imp_right fun hmem => h'.order hmem
    · exact .inr hid
  · rcases h'.closed id hid with hid | hid
    · refine (h.closed id hid).imp_right fun hclosed n hn input hinput hsome => ?_
      exact h'.entered (hclosed n hn input hinput hsome)
    · exact .inr hid

/-- Meeting a number that no node has changes nothing else. -/
lemma extends_skip (g : Graph) (w : Walk) (id : NodeId) : Extends g w (w.skip id) :=
  ⟨List.Subset.refl _, List.Subset.refl _, fun _ h => .inl h, fun _ h => .inl h, fun _ h => .inl h,
    fun h => h⟩

/-- The number of nodes that were not entered yet. -/
def unentered (g : Graph) (w : Walk) : Nat := {id ∈ Finset.range g.size | id ∉ w.entered}.card

/-- There are at most as many of them as there are nodes. -/
lemma unentered_lt (g : Graph) (w : Walk) : unentered g w < g.size + 1 := by
  refine Nat.lt_succ_of_le ((Finset.card_filter_le _ _).trans ?_)
  rw [Finset.card_range]

/-- The longer the walk, the fewer nodes were not entered. -/
lemma unentered_le (h : w.entered ⊆ w'.entered) : unentered g w' ≤ unentered g w := by
  refine Finset.card_le_card fun id hid => ?_
  rw [Finset.mem_filter] at hid ⊢
  exact ⟨hid.1, fun hmem => hid.2 (h hmem)⟩

/-- One node less was not entered after a node is entered for the first time. -/
lemma unentered_enter (hnode : id < g.size) (hnew : id ∉ w.entered) :
    unentered g (w.enter id) < unentered g w := by
  refine Finset.card_lt_card (Finset.ssubset_iff_of_subset ?_ |>.2 ⟨id, ?_, ?_⟩)
  · intro other hother
    rw [Finset.mem_filter] at hother ⊢
    exact ⟨hother.1, fun hmem => hother.2 (List.mem_cons_of_mem _ hmem)⟩
  · rw [Finset.mem_filter, Finset.mem_range]
    exact ⟨hnode, hnew⟩
  · rw [Finset.mem_filter]
    exact fun h => h.2 List.mem_cons_self

/-- A node that was not entered before is entered, all that it leads to is entered, and then it is
left. -/
lemma Extends.around {n : Node} (hnode : g.node? id = some n) (hnew : id ∉ w.entered)
    (h : Extends g (w.enter id) w')
    (hinputs : ∀ input ∈ n.inputNodes, (g.node? input).isSome → input ∈ w'.entered) :
    Extends g w (w'.leave id) := by
  have hentered : w.entered ⊆ w'.entered := fun _ hmem => h.entered (List.mem_cons_of_mem _ hmem)
  have hself : id ∈ w'.entered := h.entered List.mem_cons_self
  refine ⟨hentered, fun _ hmem => List.mem_append_left _ (h.order hmem), fun other hother => ?_,
    fun other hother => ?_, fun other hother => ?_, fun honce => ?_⟩
  · rcases List.mem_append.1 hother with hother | hother
    · refine (h.fresh other hother).imp_right fun hnot hmem => hnot (List.mem_cons_of_mem _ hmem)
    · rw [List.mem_singleton.1 hother]
      exact .inr hnew
  · rcases h.left other hother with hother | hother
    · rcases List.mem_cons.1 hother with rfl | hother
      · exact .inr (List.mem_append_right _ List.mem_cons_self)
      · exact .inl hother
    · exact .inr (List.mem_append_left _ hother)
  · rcases List.mem_append.1 hother with hother | hother
    · exact h.closed other hother
    · rw [List.mem_singleton.1 hother]
      refine .inr fun m hm => ?_
      rw [hnode] at hm
      cases hm
      exact hinputs
  · -- the node is in the order only now: it was not entered before, and it was while it was open
    have henter : (w.enter id).order.Nodup ∧ (w.enter id).order ⊆ (w.enter id).entered :=
      ⟨honce.1, fun _ hmem => List.mem_cons_of_mem _ (honce.2 hmem)⟩
    obtain ⟨hnodup, hsub⟩ := h.once henter
    have hnotin : id ∉ w'.order := by
      intro hmem
      rcases h.fresh id hmem with hold | hnot
      · exact hnew (honce.2 hold)
      · exact hnot List.mem_cons_self
    refine ⟨?_, List.append_subset.2 ⟨hsub, List.cons_subset.2 ⟨hself, List.nil_subset _⟩⟩⟩
    refine List.nodup_append.2 ⟨hnodup, List.nodup_singleton _, fun a ha b hb => ?_⟩
    rw [List.mem_singleton.1 hb]
    exact fun heq => hnotin (heq ▸ ha)

end Walk

namespace Graph

open Walk

/-- What a visit does, for one node: the walk goes on, and the node is entered if it exists. -/
def Visits (g : Graph) (step : Walk → Walk) (id : NodeId) (w : Walk) : Prop :=
  Extends g w (step w) ∧ ((g.node? id).isSome → id ∈ (step w).entered)

/-- What visits to several nodes do, if every one of them does it from each longer walk. -/
lemma visits_foldl {visit : NodeId → Walk → Walk} {ids : List NodeId}
    (h : ∀ id ∈ ids, ∀ w', w.entered ⊆ w'.entered → g.Visits (visit id) id w') :
    Extends g w (ids.foldl (fun w id => visit id w) w) ∧ ∀ id ∈ ids, (g.node? id).isSome →
      id ∈ (ids.foldl (fun w id => visit id w) w).entered := by
  induction ids generalizing w with
  | nil => exact ⟨.refl g w, by simp⟩
  | cons id ids ih =>
    obtain ⟨hfirst, hentered⟩ := h id List.mem_cons_self w (List.Subset.refl _)
    obtain ⟨hrest, hothers⟩ := @ih (visit id w) fun other hother w' hw' =>
      h other (List.mem_cons_of_mem _ hother) w' (List.Subset.trans hfirst.entered hw')
    refine ⟨hfirst.trans hrest, List.forall_mem_cons.2 ⟨fun hsome => ?_, hothers⟩⟩
    exact hrest.entered (hentered hsome)

/-- A visit with enough fuel goes on with the walk, and enters the node if it exists. -/
lemma visits_visit (g : Graph) (fuel : Nat) (id : NodeId) (w : Walk)
    (hfuel : unentered g w < fuel) : g.Visits (g.visit fuel id) id w := by
  induction fuel generalizing id w with
  | zero => exact absurd hfuel (Nat.not_lt_zero _)
  | succ fuel ih =>
    rw [Visits, visit]
    cases hnode : g.node? id with
    | none => exact ⟨extends_skip g w id, by simp⟩
    | some n =>
      simp only
      split
      next hmem => exact ⟨.refl g w, fun _ => List.contains_iff_mem.1 hmem⟩
      next hmem =>
        have hnew : id ∉ w.entered := fun h => hmem (List.contains_iff_mem.2 h)
        have hsize : id < g.size := (Array.getElem?_eq_some_iff.1 hnode).1
        -- from every walk that goes on from here, one node less was not entered
        have hvisits : ∀ input ∈ n.inputNodes.filter (· ≠ id), ∀ w',
            (w.enter id).entered ⊆ w'.entered → g.Visits (g.visit fuel input) input w' := by
          intro input _ w' hw'
          refine ih input w' ?_
          have hless := unentered_enter (g := g) hsize hnew
          have hle := unentered_le (g := g) hw'
          omega
        obtain ⟨hextends, hinputs⟩ := visits_foldl hvisits
        refine ⟨.around hnode hnew hextends fun input hinput hsome => ?_, fun _ => ?_⟩
        · by_cases heq : input = id
          · rw [heq]
            exact hextends.entered List.mem_cons_self
          · refine hinputs input (List.mem_filter.2 ⟨hinput, ?_⟩) hsome
            exact decide_eq_true heq
        · exact hextends.entered List.mem_cons_self

/-- A walk from roots extends the empty walk, and it enters the roots that exist. -/
lemma extends_walk (g : Graph) (roots : List NodeId) :
    Extends g {} (g.walk roots) ∧
      ∀ id ∈ roots, (g.node? id).isSome → id ∈ (g.walk roots).entered := by
  exact visits_foldl fun id _ w _ => g.visits_visit (g.size + 1) id w (unentered_lt g w)

/-- A walk lists every node once. -/
theorem nodup_traverse (g : Graph) (roots : List NodeId) : (g.traverse roots).Nodup :=
  ((g.extends_walk roots).1.once ⟨List.nodup_nil, List.Subset.refl _⟩).1

/-- What a walk enters it lists. -/
lemma mem_traverse_of_entered {roots : List NodeId} (h : id ∈ (g.walk roots).entered) :
    id ∈ g.traverse roots :=
  ((g.extends_walk roots).1.left id h).resolve_left List.not_mem_nil

/-- A walk lists its roots. -/
theorem mem_traverse_of_root {roots : List NodeId} (hid : id ∈ roots)
    (hnode : (g.node? id).isSome) : id ∈ g.traverse roots :=
  mem_traverse_of_entered ((g.extends_walk roots).2 id hid hnode)

/-- A walk lists the inputs of the nodes that it lists. -/
theorem mem_traverse_of_input {roots : List NodeId} {n : Node} {input : NodeId}
    (hid : id ∈ g.traverse roots) (hn : g.node? id = some n) (hinput : input ∈ n.inputNodes)
    (hnode : (g.node? input).isSome) : input ∈ g.traverse roots := by
  refine mem_traverse_of_entered ?_
  exact ((g.extends_walk roots).1.closed id hid).resolve_left List.not_mem_nil n hn input hinput
    hnode

/-! ## What is listed first -/

/-- Inputs lead from the one node to the other. -/
def Reaches (g : Graph) : NodeId → NodeId → Prop :=
  Relation.ReflTransGen fun a b => ∃ n, g.node? a = some n ∧ b ∈ n.inputNodes

/-- The inputs of a node that was left, and those of the nodes that were left before it, were left
before it, unless they reach it: while a node is open, all open nodes reach it. -/
def Ordered (g : Graph) (order : List NodeId) : Prop :=
  ∀ before id after, order = before ++ id :: after → ∀ other ∈ id :: before, ∀ n,
    g.node? other = some n → ∀ input ∈ n.inputNodes, (g.node? input).isSome →
      input ∈ before ∨ g.Reaches input id

/-- A node is left when all that was entered was left or reaches it. -/
lemma Ordered.leave {order : List NodeId} (h : g.Ordered order)
    (hinputs : ∀ other ∈ id :: order, ∀ n, g.node? other = some n → ∀ input ∈ n.inputNodes,
      (g.node? input).isSome → input ∈ order ∨ g.Reaches input id) :
    g.Ordered (order ++ [id]) := by
  intro before last after hsplit
  rcases List.eq_nil_or_concat after with rfl | ⟨after, end', rfl⟩
  · obtain ⟨rfl, hlast⟩ := List.append_inj' hsplit rfl
    cases hlast
    exact hinputs
  · have hassoc : order ++ [id] = (before ++ last :: after) ++ [end'] := by
      rw [hsplit, List.concat_eq_append, List.append_assoc, List.cons_append]
    obtain ⟨rfl, -⟩ := List.append_inj' hassoc rfl
    exact h before last after rfl

/-- The nodes that were entered and not left reach the node. -/
def OpenReach (g : Graph) (w : Walk) (id : NodeId) : Prop :=
  ∀ other ∈ w.entered, other ∈ w.order ∨ g.Reaches other id

/-- The inputs of all nodes that were left were entered. -/
def Closed (g : Graph) (w : Walk) : Prop :=
  ∀ id ∈ w.order, ∀ n, g.node? id = some n → ∀ input ∈ n.inputNodes, (g.node? input).isSome →
    input ∈ w.entered

/-- The inputs stay entered when the walk goes on. -/
lemma Closed.extends (h : g.Closed w) (hextends : Extends g w w') : g.Closed w' := by
  intro id hid n hn input hinput hsome
  rcases hextends.closed id hid with hold | hnew
  · exact hextends.entered (h id hold n hn input hinput hsome)
  · exact hnew n hn input hinput hsome

/-- What is open after a part of the walk was open before it. -/
lemma OpenReach.extends (h : g.OpenReach w id) (hextends : Extends g w w') : g.OpenReach w' id := by
  intro other hother
  rcases hextends.left other hother with hold | hleft
  · exact (h other hold).imp_left fun hmem => hextends.order hmem
  · exact .inl hleft

/-- Visits to several nodes keep the order, if each of them does it from each longer walk that is
open only for nodes that reach it. -/
lemma ordered_foldl {visit : NodeId → Walk → Walk} {ids : List NodeId}
    (hvisits : ∀ id ∈ ids, ∀ w', w.entered ⊆ w'.entered → g.Visits (visit id) id w')
    (hordered : ∀ id ∈ ids, ∀ w', w.entered ⊆ w'.entered → g.Closed w' → g.OpenReach w' id →
      g.Ordered w'.order → g.Ordered (visit id w').order)
    (hclosed : g.Closed w) (hopen : ∀ id ∈ ids, g.OpenReach w id) (h : g.Ordered w.order) :
    g.Ordered (ids.foldl (fun w id => visit id w) w).order := by
  induction ids generalizing w with
  | nil => exact h
  | cons id ids ih =>
    have hfirst := (hvisits id List.mem_cons_self w (List.Subset.refl _)).1
    rw [List.foldl_cons]
    refine ih ?_ ?_ (hclosed.extends hfirst) ?_ ?_
    · exact fun other hother w' hw' => hvisits other (List.mem_cons_of_mem _ hother) w'
        (List.Subset.trans hfirst.entered hw')
    · exact fun other hother w' hw' => hordered other (List.mem_cons_of_mem _ hother) w'
        (List.Subset.trans hfirst.entered hw')
    · exact fun other hother => (hopen other (List.mem_cons_of_mem _ hother)).extends hfirst
    · exact hordered id List.mem_cons_self w (List.Subset.refl _) hclosed
        (hopen id List.mem_cons_self) h

/-- A visit with enough fuel keeps the order, if only nodes that reach the visited one are open. -/
lemma ordered_visit (g : Graph) (fuel : Nat) (id : NodeId) (w : Walk)
    (hfuel : unentered g w < fuel) (hclosed : g.Closed w) (hopen : g.OpenReach w id)
    (h : g.Ordered w.order) : g.Ordered (g.visit fuel id w).order := by
  induction fuel generalizing id w with
  | zero => exact absurd hfuel (Nat.not_lt_zero _)
  | succ fuel ih =>
    have hextends : Extends g w (g.visit (fuel + 1) id w) :=
      (g.visits_visit (fuel + 1) id w hfuel).1
    have hclosed' := hclosed.extends hextends
    rw [visit] at hextends hclosed' ⊢
    cases hnode : g.node? id with
    | none => exact h
    | some n =>
      rw [hnode] at hextends hclosed'
      simp only at hextends hclosed' ⊢
      split
      next => exact h
      next hmem =>
        rw [if_neg hmem] at hextends hclosed'
        have hnew : id ∉ w.entered := fun h => hmem (List.contains_iff_mem.2 h)
        have hsize : id < g.size := (Array.getElem?_eq_some_iff.1 hnode).1
        -- from every walk that goes on from here, one node less was not entered
        have hless : ∀ w' : Walk, (w.enter id).entered ⊆ w'.entered → unentered g w' < fuel := by
          intro w' hw'
          have hless := unentered_enter (g := g) hsize hnew
          have hle := unentered_le (g := g) hw'
          omega
        have hopenSelf : g.OpenReach (w.enter id) id := by
          intro other hother
          rcases List.mem_cons.1 hother with rfl | hother
          · exact .inr .refl
          · exact hopen other hother
        have hinner : g.Ordered ((n.inputNodes.filter (· ≠ id)).foldl
            (fun w input => g.visit fuel input w) (w.enter id)).order := by
          refine ordered_foldl (fun input _ w' hw' => g.visits_visit fuel input w' (hless w' hw'))
            (fun input _ w' hw' => ih input w' (hless w' hw')) ?_ (fun input hinput => ?_) h
          · exact fun other hother m hm input hinput hsome =>
              List.mem_cons_of_mem _ (hclosed other hother m hm input hinput hsome)
          · have hmem := List.mem_of_mem_filter hinput
            exact fun other hother => (hopenSelf other hother).imp_right fun hreaches =>
              hreaches.tail ⟨n, hnode, hmem⟩
        have hextendsInner : Extends g (w.enter id) ((n.inputNodes.filter (· ≠ id)).foldl
            (fun w input => g.visit fuel input w) (w.enter id)) :=
          (visits_foldl fun input _ w' hw' => g.visits_visit fuel input w' (hless w' hw')).1
        refine hinner.leave fun other hother m hm input hinput hsome => ?_
        have hleft : other ∈ (Walk.leave ((n.inputNodes.filter (· ≠ id)).foldl
            (fun w input => g.visit fuel input w) (w.enter id)) id).order :=
          (List.perm_append_singleton id _).mem_iff.2 hother
        exact hopenSelf.extends hextendsInner input (hclosed' other hleft m hm input hinput hsome)

/-- A walk lists the inputs of a node before the node, and also the inputs of the nodes that it listed
before, unless they reach the node. -/
theorem ordered_traverse (g : Graph) (roots : List NodeId) : g.Ordered (g.traverse roots) := by
  refine ordered_foldl (fun root _ w _ => g.visits_visit _ root w (unentered_lt g w))
    (fun root _ w _ => g.ordered_visit _ root w (unentered_lt g w)) (by simp [Closed]) ?_ ?_
  · exact fun _ _ other hother => absurd hother List.not_mem_nil
  · exact fun before id after hsplit => by simp at hsplit

end Graph

end SceneShading
