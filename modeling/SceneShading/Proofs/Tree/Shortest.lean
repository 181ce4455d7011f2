import SceneShading.Proofs.Tree.Tour

/-!
# Moves are shortest

No way of popping and pushing state sets leads from the stack of one node to that of another in
fewer steps than the move between the nodes, as long as there is no group above them.

The bound has two halves. Whatever is done to a stack, some end of it stays untouched, and all that
lay above and all that lies above it now was popped or pushed one set at a time
(`StackEdit.exists_untouched`). An end of the stack of a node is the stack of a node above it; two
such nodes with the same identities are one node, which is above both ends of the way and therefore
above their meet (`WellFormed.length_le_of_edits`). Nothing that is untouched reaches higher than
the stack of the meet.

Groups spoil the second half: two nodes that are told apart by a group may have the same stack.
-/

namespace SceneShading

/-- What can be done to a stack of state sets. -/
inductive StackEdit where
  /-- The set on top is popped, if there is one. -/
  | pop
  /-- Any set is pushed. -/
  | push (set : SharedSet)

namespace StackEdit

/-- The stack after an edit. -/
def apply (stack : List SharedSet) : StackEdit → List SharedSet
  | pop => stack.tail
  | push s => s :: stack

/-- The stack after several edits. -/
def applyAll (stack : List SharedSet) (edits : List StackEdit) : List SharedSet :=
  edits.foldl apply stack

/-- Some end of a stack stays untouched, and there are at least as many edits as sets that were
above it and sets that are above it now. -/
theorem exists_untouched (edits : List StackEdit) (stack : List SharedSet) :
    ∃ gone added rest, stack = gone ++ rest ∧ applyAll stack edits = added ++ rest ∧
      gone.length + added.length ≤ edits.length := by
  induction edits generalizing stack with
  | nil => exact ⟨[], [], stack, rfl, rfl, le_rfl⟩
  | cons e edits ih =>
    obtain ⟨gone, added, rest, hstack, hfinal, hlen⟩ := ih (apply stack e)
    have hcons : applyAll stack (e :: edits) = added ++ rest := hfinal
    rw [List.length_cons]
    cases e with
    | pop =>
      cases stack with
      | nil =>
        obtain ⟨rfl, rfl⟩ := List.nil_eq_append_iff.1 hstack
        exact ⟨[], added, [], rfl, hcons, by omega⟩
      | cons s stack =>
        have htail : stack = gone ++ rest := hstack
        exact ⟨s :: gone, added, rest, by rw [htail, List.cons_append], hcons, by
          rw [List.length_cons]
          omega⟩
    | push s =>
      cases gone with
      | nil =>
        -- The pushed set itself is untouched by what comes later.
        obtain rfl : rest = s :: stack := hstack.symm
        refine ⟨[], added ++ [s], stack, rfl, ?_, ?_⟩
        · rw [hcons, List.append_assoc, List.singleton_append]
        · rw [List.length_append, List.length_singleton]
          omega
      | cons r gone =>
        obtain ⟨rfl, htail⟩ := List.cons.inj hstack
        refine ⟨gone, added, rest, htail, hcons, ?_⟩
        rw [List.length_cons] at hlen
        omega

end StackEdit

namespace StateTree

/-- A turn pops what is left and pushes what is entered. -/
lemma length_turn (left entered : List SharedSet) :
    (turn left entered).length = left.length + entered.length := by
  rw [turn, List.length_append, List.length_map, List.length_map, List.length_reverse]

namespace WellFormed

variable {t : StateTree} {a b c : TreeId}

/-- Without groups on the way up from a node, there is none on the way up from what is above. -/
lemma ungrouped_of_mem_lineage (ht : t.WellFormed) (ha : t.contains a) (hu : t.Ungrouped a)
    {x : TreeId} (hx : x ∈ t.lineage a) : t.Ungrouped x :=
  fun y hy => hu y ((ht.lineage_suffix ha hx).subset hy)

/-- Without groups on the way up, every end of the stack of a node is the stack of a node above. -/
lemma exists_above_of_stack_eq (ht : t.WellFormed) {gone rest : List SharedSet}
    (ha : t.contains a) (hu : t.Ungrouped a) (h : t.stack a = gone ++ rest) :
    ∃ x ∈ t.lineage a, t.stack x = rest := by
  induction gone generalizing a with
  | nil => exact ⟨a, ht.self_mem_lineage ha, h⟩
  | cons s gone ih =>
    obtain rfl | ⟨p, hp⟩ := ht.eq_root_or_exists_parent ha
    · rw [ht.stack_root] at h
      cases h
    · obtain ⟨hup, r, hr⟩ := ht.ungrouped_of_parent? hp hu
      rw [ht.stack_of_parent? hp, hr] at h
      obtain ⟨-, htail⟩ := List.cons.inj h
      obtain ⟨x, hx, hstack⟩ := ih (ht.contains_parent hp) hup htail
      refine ⟨x, ?_, hstack⟩
      rw [ht.lineage_of_parent? hp]
      exact List.mem_cons_of_mem a hx

/-- The stack of a node above is at most as high. -/
lemma length_stack_le (ht : t.WellFormed) (ha : t.contains a) {x : TreeId}
    (hx : x ∈ t.lineage a) : (t.stack x).length ≤ (t.stack a).length := by
  obtain ⟨-, below, hbelow⟩ := ht.lineage_split ha hx
  rw [stack, stack, hbelow, List.filterMap_append, List.length_append]
  omega

/-- Whoever turns the stack of one node into that of another edits it at least once for every set
that the move between them pops or pushes. -/
theorem length_le_of_edits (ht : t.WellFormed) (ha : t.contains a) (hb : t.contains b)
    (hua : t.Ungrouped a) (hub : t.Ungrouped b) {left entered : List TreeId}
    (hturn : t.Turn c a b left entered) {edits : List StackEdit}
    (hedits : (StackEdit.applyAll (t.stack a) edits).map (·.identity) =
      (t.stack b).map (·.identity)) :
    (left.filterMap t.set?).length + (entered.filterMap t.set?).length ≤ edits.length := by
  obtain ⟨gone, added, rest, hgone, hadded, hlen⟩ :=
    StackEdit.exists_untouched edits (t.stack a)
  rw [hadded, List.map_append, eq_comm, List.map_eq_append_iff] at hedits
  obtain ⟨added', rest', hb', haddedEq, hrestEq⟩ := hedits
  obtain ⟨x, hxa, hx⟩ := ht.exists_above_of_stack_eq ha hua hgone
  obtain ⟨y, hyb, hy⟩ := ht.exists_above_of_stack_eq hb hub hb'
  -- What is untouched is the stack of one node, and that node is above the meet.
  have hxy : x = y :=
    ht.eq_of_identities (ht.lineage_split ha hxa).1 (ht.lineage_split hb hyb).1
      (ht.ungrouped_of_mem_lineage ha hua hxa) (ht.ungrouped_of_mem_lineage hb hub hyb)
      (by rw [hx, hy, hrestEq])
  have hxc : x ∈ t.lineage c := hturn.meet.lowest x hxa (hxy ▸ hyb)
  have hrest : rest.length ≤ (t.stack c).length := by
    rw [← hx]
    exact ht.length_stack_le (ht.contains_meet ha hturn.meet) hxc
  have hsource := congrArg List.length (hturn.stack_source.symm.trans hgone)
  have htarget := congrArg List.length (hturn.stack_target.symm.trans hb')
  have haddedLen : added'.length = added.length := by
    have h := congrArg List.length haddedEq
    rwa [List.length_map, List.length_map] at h
  have hrestLen : rest'.length = rest.length := by
    have h := congrArg List.length hrestEq
    rwa [List.length_map, List.length_map] at h
  simp only [List.length_append] at hsource htarget
  omega

end WellFormed

/-- **Moves are shortest.** Between two live nodes without groups above them, a move turns the stack
of the one into that of the other, and nothing that does so up to identity is shorter. -/
theorem Reachable.move_shortest {t : StateTree} (h : t.Reachable) {a b : TreeId}
    (ha : t.contains a) (hb : t.contains b) (hua : t.Ungrouped a) (hub : t.Ungrouped b) :
    ∃ steps, t.move (some a) b = some steps ∧ Replays (t.stack a) steps (t.stack b) ∧
      ∀ edits : List StackEdit, (StackEdit.applyAll (t.stack a) edits).map (·.identity) =
        (t.stack b).map (·.identity) → steps.length ≤ edits.length := by
  have ht : t.WellFormed := h.wellFormed
  obtain ⟨c, left, entered, hturn, hmove⟩ := ht.move_eq ha hb
  refine ⟨_, hmove, ?_, ?_⟩
  · rw [hturn.stack_source, hturn.stack_target]
    exact Replays.turn _ _ _
  · intro edits hedits
    rw [length_turn]
    exact ht.length_le_of_edits ha hb hua hub hturn hedits

/-- From one branch of the tree with two branches to the other it takes at least four edits. -/
theorem move_shortest_twoBranches :
    twoBranches.Reachable ∧ twoBranches.Ungrouped 2 ∧ twoBranches.Ungrouped 4 ∧
    ∃ steps, twoBranches.move (some 2) 4 = some steps ∧ steps.length = 4 ∧
      ∀ edits : List StackEdit,
        (StackEdit.applyAll (twoBranches.stack 2) edits).map (·.identity) =
          (twoBranches.stack 4).map (·.identity) → 4 ≤ edits.length := by
  have hleft : twoBranches.Ungrouped 2 := by
    intro x hx
    revert x
    decide
  have hright : twoBranches.Ungrouped 4 := by
    intro x hx
    revert x
    decide
  obtain ⟨steps, hmove, -, hshortest⟩ :=
    Reachable.move_shortest reachable_twoBranches (by decide) (by decide) hleft hright
  have hlen : steps.length = 4 := by
    have h : (twoBranches.move (some 2) 4).map List.length = some 4 := rfl
    rw [hmove] at h
    exact Option.some.inj h
  exact ⟨reachable_twoBranches, hleft, hright, steps, hmove, hlen,
    fun edits hedits => hlen ▸ hshortest edits hedits⟩

end StateTree

end SceneShading
