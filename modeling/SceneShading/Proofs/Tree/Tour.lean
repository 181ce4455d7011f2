import SceneShading.Proofs.Tree.Meet

/-!
# Tours of a state tree

Whoever walks through a state tree keeps a stack of state sets and does to it what the moves say.
`Replays` follows the pops and pushes on such a stack, and does not let anything be popped but the
set on top. Between two live nodes a move leads from the stack of the one to that of the other
(`WellFormed.exists_move`), so that a walker who starts with nothing has the stack of the current
node after each move of a tour, and nothing again after the last pops (`WellFormed.exists_tour`).
-/

namespace SceneShading

/-- The transitions turn a stack into another, and no set is popped but the one on top. Stacks are
given innermost first. -/
inductive Replays : List SharedSet → List Transition → List SharedSet → Prop where
  | done (stack : List SharedSet) : Replays stack [] stack
  | push {stack final : List SharedSet} {steps : List Transition} (s : SharedSet) :
      Replays (s :: stack) steps final → Replays stack (.push s :: steps) final
  | pop {stack final : List SharedSet} {steps : List Transition} (s : SharedSet) :
      Replays stack steps final → Replays (s :: stack) (.pop s :: steps) final

namespace Replays

/-- What is replayed in two parts is replayed as a whole. -/
lemma append {first middle last : List SharedSet} {steps steps' : List Transition}
    (h : Replays first steps middle) (h' : Replays middle steps' last) :
    Replays first (steps ++ steps') last := by
  induction h with
  | done _ => exact h'
  | push s _ ih => exact .push s (ih h')
  | pop s _ ih => exact .pop s (ih h')

/-- What lies on top of a stack can be popped in its order. -/
lemma pops (left rest : List SharedSet) : Replays (left ++ rest) (left.map .pop) rest := by
  induction left with
  | nil => exact .done rest
  | cons s left ih => exact .pop s ih

/-- Pushing sets in the reverse order lays them on top of a stack. -/
lemma pushes (entered rest : List SharedSet) :
    Replays rest (entered.reverse.map .push) (entered ++ rest) := by
  induction entered with
  | nil => exact .done rest
  | cons s entered ih =>
    rw [List.reverse_cons, List.map_append]
    exact ih.append (.push s (.done _))

/-- A turn replaces what lies on top of a stack. -/
lemma turn (left entered rest : List SharedSet) :
    Replays (left ++ rest) (StateTree.turn left entered) (entered ++ rest) :=
  (pops left rest).append (pushes entered rest)

end Replays

namespace StateTree

/-- The moves through some targets, one after another. -/
def tour (t : StateTree) : Option TreeId → List TreeId → Option (List (List Transition))
  | _, [] => some []
  | source, target :: targets => do
    let steps ← t.move source target
    let moves ← t.tour (some target) targets
    return steps :: moves

namespace WellFormed

variable {t : StateTree}

/-- A move leads from the stack of its source, or from the empty stack, to that of its target. -/
lemma exists_move (ht : t.WellFormed) {source : Option TreeId} {target : TreeId}
    (hsource : ∀ a ∈ source, t.contains a) (htarget : t.contains target) :
    ∃ steps, t.move source target = some steps ∧
      Replays (source.elim [] t.stack) steps (t.stack target) := by
  cases source with
  | none =>
    refine ⟨_, t.move_none htarget, ?_⟩
    simpa using Replays.turn [] (t.stack target) []
  | some a =>
    obtain ⟨c, left, entered, hturn, hmove⟩ := ht.move_eq (hsource a rfl) htarget
    refine ⟨_, hmove, ?_⟩
    rw [Option.elim_some, hturn.stack_source, hturn.stack_target]
    exact Replays.turn _ _ _

/-- Each move of a tour ends with the stack of its target. -/
lemma exists_tour (ht : t.WellFormed) {targets : List TreeId} {source : Option TreeId}
    (hsource : ∀ a ∈ source, t.contains a) (htargets : ∀ x ∈ targets, t.contains x) :
    ∃ moves, t.tour source targets = some moves ∧ moves.length = targets.length ∧
      ∀ k target, targets[k]? = some target →
        Replays (source.elim [] t.stack) (moves.take (k + 1)).flatten (t.stack target) := by
  induction targets generalizing source with
  | nil => exact ⟨[], rfl, rfl, fun k target hk => by simp at hk⟩
  | cons x targets ih =>
    have hx : t.contains x := htargets x List.mem_cons_self
    obtain ⟨steps, hmove, hreplay⟩ := ht.exists_move hsource hx
    have hnext : ∀ a ∈ some x, t.contains a := fun a ha => Option.some.inj ha ▸ hx
    obtain ⟨moves, htour, hlen, hrest⟩ :=
      ih hnext fun y hy => htargets y (List.mem_cons_of_mem x hy)
    refine ⟨steps :: moves, ?_, congrArg Nat.succ hlen, ?_⟩
    · rw [tour, hmove, Option.bind_eq_bind, Option.bind_some, htour]
      rfl
    · intro k target hk
      cases k with
      | zero =>
        obtain rfl : x = target := Option.some.inj hk
        simpa using hreplay
      | succ k =>
        rw [List.take_succ_cons, List.flatten_cons]
        exact hreplay.append (hrest k target hk)

/-- After a tour, the pops that lead out of the tree empty the stack. -/
lemma exists_pops (ht : t.WellFormed) {targets : List TreeId}
    (htargets : ∀ x ∈ targets, t.contains x) {moves : List (List Transition)}
    (htour : t.tour none targets = some moves) {last : TreeId}
    (hlast : targets.getLast? = some last) :
    ∃ pops, t.popToRoot last = some pops ∧ Replays [] (moves.flatten ++ pops) [] := by
  have hnone : ∀ a ∈ (none : Option TreeId), t.contains a := fun a ha => by cases ha
  obtain ⟨moves', htour', hlen, hreplay⟩ := ht.exists_tour hnone htargets
  obtain rfl := Option.some.inj (htour'.symm.trans htour)
  have hk : targets[targets.length - 1]? = some last := by
    rw [← List.getLast?_eq_getElem?, hlast]
  have hall := hreplay (targets.length - 1) last hk
  have hpos : 0 < targets.length := List.length_pos_of_mem (List.mem_of_getLast? hlast)
  rw [Nat.sub_add_cancel hpos, ← hlen, List.take_length] at hall
  refine ⟨_, t.popToRoot_eq (htargets last (List.mem_of_getLast? hlast)), hall.append ?_⟩
  simpa using Replays.turn (t.stack last) [] []

end WellFormed

/-- **Moves follow the stacks of a reachable tree.** Between two live nodes a move pops the sets of
the nodes below their meet on the way up and pushes those on the way down; groups have no set to pop
or push, a node moves nowhere to itself, and what is done for siblings is what is done in general.
From outside the tree the whole stack of the target is pushed. So on any tour of live nodes that
starts with an empty stack, nothing is popped but the set on top, each move ends with the stack of
its target, and the last pops leave nothing. -/
theorem Reachable.moves_follow_stacks {t : StateTree} (h : t.Reachable) :
    (∀ a b, t.contains a → t.contains b → ∃ c left entered, t.IsMeet c a b ∧
      t.lineage a = left ++ t.lineage c ∧ t.lineage b = entered ++ t.lineage c ∧
      t.move (some a) b = some ((left.filterMap t.set?).map .pop ++
        (entered.filterMap t.set?).reverse.map .push)) ∧
    (∀ a, t.contains a → t.move (some a) a = some []) ∧
    (∀ a b m n, t.node? a = some m → t.node? b = some n → a ≠ b → areSiblings m n →
      t.move (some a) b = some (turn m.set.toList n.set.toList) ∧
      turn m.set.toList n.set.toList = t.generalMove a b m n) ∧
    (∀ b, t.contains b → t.move none b = some ((t.stack b).reverse.map .push)) ∧
    (∀ targets : List TreeId, (∀ x ∈ targets, t.contains x) →
      ∃ moves, t.tour none targets = some moves ∧ moves.length = targets.length ∧
        (∀ k target, targets[k]? = some target →
          Replays [] (moves.take (k + 1)).flatten (t.stack target)) ∧
        ∀ last, targets.getLast? = some last →
          ∃ pops, t.popToRoot last = some pops ∧ Replays [] (moves.flatten ++ pops) []) := by
  have ht : t.WellFormed := h.wellFormed
  refine ⟨?_, ?_, ?_, ?_, ?_⟩
  · intro a b ha hb
    obtain ⟨c, left, entered, hturn, hmove⟩ := ht.move_eq ha hb
    exact ⟨c, left, entered, hturn.meet, hturn.lineage_source, hturn.lineage_target, hmove⟩
  · intro a _
    rw [move, if_pos rfl]
  · intro a b m n hm hn hne hsiblings
    have hshort := ht.turn_eq_generalMove hm hn hne hsiblings
    exact ⟨hshort ▸ ht.move_eq_generalMove hm hn, hshort⟩
  · intro b hb
    exact t.move_none hb
  · intro targets htargets
    have hnone : ∀ a ∈ (none : Option TreeId), t.contains a := fun a ha => by cases ha
    obtain ⟨moves, htour, hlen, hreplay⟩ := ht.exists_tour hnone htargets
    exact ⟨moves, htour, hlen, hreplay, fun last hlast => ht.exists_pops htargets htour hlast⟩

/-- Moves follow the stacks of the tree with two branches: from one branch into the other, and on a
tour that goes there and back. -/
theorem moves_follow_stacks_twoBranches :
    twoBranches.Reachable ∧ twoBranches.contains 6 ∧ twoBranches.contains 4 ∧
    (∃ c left entered, twoBranches.IsMeet c 6 4 ∧
      twoBranches.lineage 6 = left ++ twoBranches.lineage c ∧
      twoBranches.lineage 4 = entered ++ twoBranches.lineage c ∧
      twoBranches.move (some 6) 4 = some ((left.filterMap twoBranches.set?).map .pop ++
        (entered.filterMap twoBranches.set?).reverse.map .push)) ∧
    ∃ moves, twoBranches.tour none [6, 4, 2] = some moves ∧
      Replays [] (moves.take 2).flatten (twoBranches.stack 4) := by
  obtain ⟨hmove, -, -, -, htour⟩ := Reachable.moves_follow_stacks reachable_twoBranches
  refine ⟨reachable_twoBranches, by decide, by decide, hmove 6 4 (by decide) (by decide), ?_⟩
  obtain ⟨moves, hmoves, -, hreplay, -⟩ := htour [6, 4, 2] (by decide)
  exact ⟨moves, hmoves, hreplay 1 4 rfl⟩

/-- The group on the way is passed without a word. -/
example : (twoBranches.move (some 6) 4).map (·.map fun step => (step.isPush, step.set.identity)) =
    some [(false, 2), (false, 1), (true, 4), (true, 5)] := rfl

end StateTree

end SceneShading
