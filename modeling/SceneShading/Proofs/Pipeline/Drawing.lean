import Mathlib.Tactic
import SceneShading.Proofs.Pipeline.Device
import SceneShading.Proofs.Pipeline.History
import SceneShading.Proofs.Program.Choice
import SceneShading.Proofs.Program.Feeding
import SceneShading.Proofs.Tree.Tour
import SceneShading.State.RenderBin

/-!
# Drawing a bin

A bin is drawn in stops: at each entry that has a visible leaf the state is moved there from the
entry before, and applied, and then the leaves are drawn (`Drawing.Stops`). What holds at all times is
that the state has the sets of the current entry on top of what it had in the beginning
(`PipelineState.Atop`). A move leads from the stack of one entry to that of the next, and nothing is
popped but the set on top, so that each pop takes off the stacks of the slots what the push had put
there; after the last pops nothing is left on top (`RenderBin.draw_stops`).
-/

namespace SceneShading

/-! ## Sets on top of a state -/

/-- The entries of a stack after sets were pushed, of which the innermost comes first. -/
def ModeStack.grownBy {α : Type} (value? : SharedSet → Option (α × Mode)) (sets : List SharedSet)
    (entries : List (α × Mode)) : List (α × Mode) :=
  sets.foldr (fun set entries => ModeStack.grown entries (value? set)) entries

namespace PipelineState

/-- The state has sets on top of a base, and on the stacks of its slots there is what they carry on
top of what was there. -/
structure Atop (base : PipelineState) (sets : List SharedSet) (s : PipelineState) : Prop where
  pushed : s.sets = sets ++ base.sets
  attributes : ∀ key, s.attributeEntries key =
    ModeStack.grownBy (·.attribute? key) sets (base.attributeEntries key)
  units : ∀ unit kind, s.unitEntries unit kind =
    ModeStack.grownBy (·.unitAttribute? unit kind) sets (base.unitEntries unit kind)
  uniforms : ∀ name, s.uniformEntries name =
    ModeStack.grownBy (·.uniform? name) sets (base.uniformEntries name)

namespace Atop

variable {base s : PipelineState} {sets : List SharedSet} {set : SharedSet}

lemma refl (base : PipelineState) : Atop base [] base :=
  ⟨rfl, fun _ => rfl, fun _ _ => rfl, fun _ => rfl⟩

/-- One more set is pushed. -/
lemma push (h : Atop base sets s) (set : SharedSet) : Atop base (set :: sets) (s.push set) where
  pushed := congrArg (set :: ·) h.pushed
  attributes key := by
    rw [attributeEntries_push, h.attributes]
    rfl
  units unit kind := by
    rw [unitEntries_push, h.units]
    rfl
  uniforms name := by
    rw [uniformEntries_push, h.uniforms]
    rfl

/-- The set on top is popped. -/
lemma pop (h : Atop base (set :: sets) s) : Atop base sets (s.pop set) where
  pushed := congrArg List.tail h.pushed
  attributes key := by
    rw [attributeEntries_pop, h.attributes]
    exact ModeStack.shrunk_grown_map _ _ set.hold
  units unit kind := by
    rw [unitEntries_pop, h.units]
    exact ModeStack.shrunk_grown_map _ _ set.hold
  uniforms name := by
    rw [uniformEntries_pop, h.uniforms]
    exact ModeStack.shrunk_grown _ _

/-- What is replayed leads from some sets on top to others. -/
lemma run {sets' : List SharedSet} {steps : List Transition} (hsteps : Replays sets steps sets')
    (h : Atop base sets s) : Atop base sets' (s.run steps) := by
  induction hsteps generalizing s with
  | done sets => exact h
  | push set _ ih => exact ih (h.push set)
  | pop set _ ih => exact ih h.pop

/-- Giving the device what was pending changes no sets, whatever program is bound. -/
lemma settled (h : Atop base sets s) (program : Option Program) :
    Atop base sets { s.settled with program } where
  pushed := h.pushed
  attributes key := (stackEntries_settle s.attributes key).trans (h.attributes key)
  units unit kind := (s.unitEntries_settled unit kind).trans (h.units unit kind)
  uniforms := h.uniforms

end Atop

end PipelineState

/-! ## Drawn leaves -/

/-- The leaf that an event draws. -/
def Event.leaf? : Event → Option RenderLeaf
  | .draw leaf => some leaf
  | .attribute .. | .program _ | .uniform .. => none

/-- Applying a state draws nothing. -/
lemma PipelineState.leaves_applied (s : PipelineState) (p : Program) :
    (s.attributeEvents ++ s.programEvents p ++ s.uniformEvents).filterMap Event.leaf? = [] := by
  refine List.filterMap_eq_nil_iff.2 fun e he => ?_
  rw [List.mem_append, List.mem_append] at he
  rcases he with (he | he) | he
  · obtain ⟨_, _, rfl⟩ := attribute_of_mem he
    rfl
  · rw [programEvents] at he
    split at he
    · cases he
    · rw [List.mem_singleton.1 he]
      rfl
  · obtain ⟨_, _, rfl⟩ := uniform_of_mem he
    rfl

/-- A place where a drawing stops: an entry with its visible leaves, the state that was moved there,
and what came of applying it. -/
structure Stop where
  entry : TreeId
  leaves : List RenderLeaf
  moved : PipelineState
  applied : PipelineState.Application

namespace Drawing

/-- A stop follows a drawing: the state is moved to the entry and applied. -/
def Followed (tree : StateTree) (d : Drawing) (stop : Stop) : Prop :=
  ∃ steps, tree.move d.previous stop.entry = some steps ∧ stop.moved = d.state.run steps ∧
    stop.moved.apply d.generator = .ok stop.applied

/-- The drawing after a stop, where its leaves were drawn. -/
def afterStop (d : Drawing) (stop : Stop) : Drawing where
  state := stop.applied.state
  generator := stop.applied.generator
  previous := some stop.entry
  events := d.events ++ stop.applied.events ++ stop.leaves.map .draw
  drawn := d.drawn + stop.leaves.length

/-- A drawing goes on by stops, one after another. -/
inductive Stops (tree : StateTree) : Drawing → List Stop → Drawing → Prop where
  | done (d : Drawing) : Stops tree d [] d
  | stop {d last : Drawing} {stop : Stop} {stops : List Stop} : d.Followed tree stop →
      Stops tree (d.afterStop stop) stops last → Stops tree d (stop :: stops) last

variable {tree : StateTree} {d last : Drawing} {stop : Stop} {stops : List Stop}

/-- Between the leaves of a stop and those before it nothing is drawn. -/
lemma Followed.leaves (h : d.Followed tree stop) :
    (d.afterStop stop).events.filterMap Event.leaf? =
      d.events.filterMap Event.leaf? ++ stop.leaves := by
  obtain ⟨steps, -, -, happly⟩ := h
  obtain ⟨p, -, -, hevents⟩ := PipelineState.of_apply happly
  rw [afterStop, hevents, List.filterMap_append, List.filterMap_append,
    PipelineState.leaves_applied, List.append_nil, List.filterMap_map]
  exact congrArg _ List.filterMap_some

/-- The leaves that are drawn are those of the stops, and they are counted. -/
lemma Stops.leaves (h : Stops tree d stops last) :
    last.events.filterMap Event.leaf? = d.events.filterMap Event.leaf? ++ stops.flatMap (·.leaves) ∧
      last.drawn = d.drawn + (stops.flatMap (·.leaves)).length := by
  induction h with
  | done d => simp
  | stop hstop _ ih =>
    rw [ih.1, ih.2, hstop.leaves]
    simp [afterStop, Nat.add_assoc]

/-- The state has the sets of the current entry on top of a base. -/
structure Stands (tree : StateTree) (context : Context) (base : PipelineState) (d : Drawing) :
    Prop where
  previous : ∀ a ∈ d.previous, tree.contains a
  state : base.Atop (d.previous.elim [] tree.stack) d.state
  context : d.generator.context = context

end Drawing

namespace RenderBin

/-- The leaves of an entry that are not culled. -/
def leavesAt (b : RenderBin) (tree : StateTree) (id : TreeId) : List RenderLeaf :=
  (tree.node? id).elim [] fun node => b.visible node.leaves

/-- The entries that have visible leaves, and these leaves. -/
def stopsIn (b : RenderBin) (tree : StateTree) (entries : List TreeId) :
    List (TreeId × List RenderLeaf) :=
  (entries.map fun id => (id, b.leavesAt tree id)).filter fun e => !e.2.isEmpty

/-- Entries are looked at one after another. -/
lemma stopsIn_cons (b : RenderBin) (tree : StateTree) (id : TreeId) (entries : List TreeId) :
    b.stopsIn tree (id :: entries) = b.stopsIn tree [id] ++ b.stopsIn tree entries := by
  rw [stopsIn, ← List.singleton_append, List.map_append, List.filter_append]
  rfl

/-- Passing over entries without visible leaves loses no leaf. -/
lemma flatMap_stopsIn (b : RenderBin) (tree : StateTree) (entries : List TreeId) :
    (b.stopsIn tree entries).flatMap (·.2) = entries.flatMap (b.leavesAt tree) := by
  induction entries with
  | nil => rfl
  | cons id entries ih =>
    rw [stopsIn_cons, List.flatMap_append, List.flatMap_cons, ih]
    cases hleaves : b.leavesAt tree id <;> simp [stopsIn, hleaves]

end RenderBin

/-! ## Drawings -/

/-- The material that is described innermost in some sets, if any, loses no part of a character. -/
def Context.IsUncutIn (ctx : Context) (sets : List SharedSet) : Prop :=
  ∀ d ∈ sets.findSome? (·.content.material), ctx.IsUncut d

/-- A state is applied if the material of its sets loses no part of a character. -/
lemma PipelineState.exists_apply {s : PipelineState} {generator : Generator}
    (huncut : generator.context.IsUncutIn s.sets) : ∃ a, s.apply generator = .ok a := by
  obtain ⟨answer, hanswer⟩ := generator.exists_programFor_of_isUncut s.request huncut
  rw [apply, hanswer]
  exact ⟨_, rfl⟩

namespace Drawing

variable {tree : StateTree} {context : Context} {base : PipelineState} {d : Drawing}

/-- The leaves of a live entry are drawn with the sets of the entry on top of the base. -/
lemma Stands.drawLeaves (htree : tree.WellFormed) (h : d.Stands tree context base) {id : TreeId}
    (hid : tree.contains id) (huncut : context.IsUncutIn (tree.stack id ++ base.sets))
    (leaves : List RenderLeaf) :
    ∃ stop : Stop, d.Followed tree stop ∧ stop.entry = id ∧ stop.leaves = leaves ∧
      RenderBin.drawLeaves tree d id leaves = .ok (d.afterStop stop) ∧
      (d.afterStop stop).Stands tree context base := by
  obtain ⟨steps, hmove, hreplays⟩ := htree.exists_move h.previous hid
  have hmoved := h.state.run hreplays
  rw [← hmoved.pushed, ← h.context] at huncut
  obtain ⟨applied, happly⟩ := PipelineState.exists_apply huncut
  obtain ⟨p, hp, hstate, -⟩ := PipelineState.of_apply happly
  refine ⟨⟨id, leaves, d.state.run steps, applied⟩, ⟨steps, hmove, rfl, happly⟩, rfl, rfl, ?_,
    fun a ha => Option.some.inj ha ▸ hid, ?_, (Generator.context_of_programFor hp).trans h.context⟩
  · rw [RenderBin.drawLeaves, hmove]
    simp only [happly]
    rfl
  · rw [afterStop, hstate]
    exact hmoved.settled _

/-- A live entry without visible leaves is passed over, and at another one the drawing stops. -/
lemma Stands.drawEntry (htree : tree.WellFormed) (h : d.Stands tree context base) (b : RenderBin)
    {id : TreeId} (hid : tree.contains id)
    (huncut : ∀ e ∈ b.stopsIn tree [id], context.IsUncutIn (tree.stack e.1 ++ base.sets)) :
    (b.stopsIn tree [id] = [] ∧ b.drawEntry tree d id = .ok d) ∨
      ∃ stop : Stop, d.Followed tree stop ∧ b.stopsIn tree [id] = [(stop.entry, stop.leaves)] ∧
        b.drawEntry tree d id = .ok (d.afterStop stop) ∧
        (d.afterStop stop).Stands tree context base := by
  obtain ⟨node, hnode⟩ := Option.isSome_iff_exists.1 hid
  have hleaves : b.leavesAt tree id = b.visible node.leaves := by
    rw [RenderBin.leavesAt, hnode, Option.elim_some]
  by_cases hempty : (b.visible node.leaves).isEmpty
  · left
    simp [RenderBin.stopsIn, RenderBin.drawEntry, hleaves, hnode, hempty]
  · right
    have hone : b.stopsIn tree [id] = [(id, b.visible node.leaves)] := by
      simp [RenderBin.stopsIn, hleaves, hempty]
    rw [hone, List.forall_mem_singleton] at huncut
    obtain ⟨stop, hfollowed, rfl, hstop, hdraw, hstands⟩ :=
      h.drawLeaves htree hid huncut (b.visible node.leaves)
    refine ⟨stop, hfollowed, ?_, ?_, hstands⟩
    · rw [hone, hstop]
    · simp [RenderBin.drawEntry, hnode, hempty, hdraw]

/-- The drawing of live entries stops where there are visible leaves, each time with the sets of the
entry on top of the base. -/
theorem Stands.drawEntries (htree : tree.WellFormed) (h : d.Stands tree context base)
    (b : RenderBin) {entries : List TreeId} (hlive : ∀ id ∈ entries, tree.contains id)
    (huncut : ∀ e ∈ b.stopsIn tree entries, context.IsUncutIn (tree.stack e.1 ++ base.sets)) :
    ∃ stops last, entries.foldlM (b.drawEntry tree) d = .ok last ∧ Stops tree d stops last ∧
      last.Stands tree context base ∧
      stops.map (fun stop => (stop.entry, stop.leaves)) = b.stopsIn tree entries ∧
      ∀ stop ∈ stops, stop.applied.state.sets = tree.stack stop.entry ++ base.sets := by
  induction entries generalizing d with
  | nil => exact ⟨[], d, rfl, .done d, h, rfl, fun _ hstop => absurd hstop List.not_mem_nil⟩
  | cons id entries ih =>
    rw [List.forall_mem_cons] at hlive
    rw [RenderBin.stopsIn_cons, List.forall_mem_append] at huncut
    rw [List.foldlM_cons, RenderBin.stopsIn_cons]
    obtain ⟨hnone, hdraw⟩ | ⟨stop, hfollowed, hone, hdraw, hstands⟩ :=
      h.drawEntry htree b hlive.1 huncut.1
    · rw [hnone, hdraw]
      exact ih h hlive.2 huncut.2
    · obtain ⟨stops, last, hfold, hstops, hlast, hmap, hsets⟩ := ih hstands hlive.2 huncut.2
      rw [hone, hdraw]
      refine ⟨stop :: stops, last, hfold, .stop hfollowed hstops, hlast, ?_, ?_⟩
      · rw [List.map_cons, hmap]
        rfl
      · exact List.forall_mem_cons.2 ⟨hstands.state.pushed, hsets⟩

end Drawing

namespace PipelineState

/-- Two states have the same sets and the same entries on the stacks of all slots. -/
structure SameStacks (s s' : PipelineState) : Prop where
  sets : s.sets = s'.sets
  attributes : ∀ key, s.attributeEntries key = s'.attributeEntries key
  units : ∀ unit kind, s.unitEntries unit kind = s'.unitEntries unit kind
  uniforms : ∀ name, s.uniformEntries name = s'.uniformEntries name

end PipelineState

/-- After a drawing its sets are popped again, and the stacks are those of the base. -/
lemma Drawing.Stands.unwind {tree : StateTree} {context : Context} {base : PipelineState}
    {d : Drawing} (h : d.Stands tree context base) :
    (RenderBin.unwind tree d).state.SameStacks base := by
  have hbase : base.Atop [] (RenderBin.unwind tree d).state := by
    cases hprevious : d.previous with
    | none =>
      have hstate := h.state
      rw [hprevious] at hstate
      simpa [RenderBin.unwind, hprevious, PipelineState.run] using hstate
    | some a =>
      have hstate := h.state
      rw [hprevious, Option.elim_some, ← List.append_nil (tree.stack a)] at hstate
      have hpops := hstate.run (.turn (tree.stack a) [] [])
      simpa [RenderBin.unwind, hprevious, tree.popToRoot_eq (h.previous a hprevious)] using hpops
  exact ⟨hbase.pushed, hbase.attributes, hbase.units, hbase.uniforms⟩

/-- **A bin draws its visible leaves in order, each with the sets of its entry.** The drawing stops at
the entries with visible leaves, in their order. At each stop the state has the sets on the way from
the root to the entry on top of those it had in the beginning, and it is applied before the leaves
are drawn. The leaves that are drawn are those that are not culled, entry after entry, and they are
counted. Afterwards the sets are popped again, and the stacks are what they were. What is described
innermost at a stop must not lose a part of a character with the first byte of a varying. -/
theorem RenderBin.draw_stops {tree : StateTree} (htree : tree.Reachable) (b : RenderBin)
    (hlive : ∀ id ∈ b.entries, tree.contains id) (state : PipelineState) (generator : Generator)
    (huncut : ∀ e ∈ b.stopsIn tree b.entries,
      generator.context.IsUncutIn (tree.stack e.1 ++ state.sets)) :
    ∃ result last stops, b.draw tree state generator = .ok result ∧
      Drawing.Stops tree { state, generator } stops last ∧ result = unwind tree last ∧
      stops.map (fun stop => (stop.entry, stop.leaves)) = b.stopsIn tree b.entries ∧
      (∀ stop ∈ stops, stop.applied.state.sets = tree.stack stop.entry ++ state.sets) ∧
      result.events.filterMap Event.leaf? = b.entries.flatMap (b.leavesAt tree) ∧
      result.drawn = (b.entries.flatMap (b.leavesAt tree)).length ∧
      result.state.SameStacks state := by
  have hstart : Drawing.Stands tree generator.context state { state, generator } :=
    ⟨fun a ha => absurd ha (Option.not_mem_none a), .refl state, rfl⟩
  obtain ⟨stops, last, hfold, hstops, hlast, hmap, hsets⟩ :=
    hstart.drawEntries htree.wellFormed b hlive huncut
  have hleaves : stops.flatMap (·.leaves) = b.entries.flatMap (b.leavesAt tree) := by
    rw [← flatMap_stopsIn, ← hmap, List.flatMap_map]
  refine ⟨unwind tree last, last, stops, ?_, hstops, rfl, hmap, hsets, ?_, ?_, hlast.unwind⟩
  · rw [draw, hfold]
    rfl
  · rw [← hleaves]
    exact hstops.leaves.1
  · rw [← hleaves]
    exact hstops.leaves.2.trans (Nat.zero_add _)

/-- The tree with two branches and a leaf at the end of each of the deeper ways. -/
def StateTree.leafyBranches : StateTree :=
  (twoBranches.grow [.addLeaf 2 { drawable := 1 }, .addLeaf 6 { drawable := 2 }]).getD empty

/-- A state where a set with a uniform was pushed. -/
def PipelineState.tinted : PipelineState :=
  initial.push ⟨9, { uniforms := Table.empty.insert "uTint" (.float .zero, .on) }⟩

/-- A bin of the tree with leaves draws three leaves in the state with a uniform, one of them twice,
passes over the entry without a leaf, and leaves the stacks as they were. -/
theorem RenderBin.draw_stops_leafyBranches : StateTree.leafyBranches.Reachable ∧
    ∃ result, RenderBin.draw { entries := [2, 1, 6, 2] } StateTree.leafyBranches
        PipelineState.tinted {} = .ok result ∧
      (result.events.filterMap Event.leaf?).map (·.drawable) = [1, 2, 1] ∧ result.drawn = 3 ∧
      result.state.SameStacks PipelineState.tinted := by
  have hreachable : StateTree.leafyBranches.Reachable :=
    StateTree.reachable_twoBranches.of_grow (show StateTree.twoBranches.grow
      [.addLeaf 2 { drawable := 1 }, .addLeaf 6 { drawable := 2 }] = some _ from rfl)
  have hplain : ∀ e ∈ RenderBin.stopsIn { entries := [2, 1, 6, 2] } StateTree.leafyBranches
      [2, 1, 6, 2], (StateTree.leafyBranches.stack e.1 ++ PipelineState.tinted.sets).findSome?
        (·.content.material) = none := by
    simp only [← Option.isNone_iff_eq_none]
    decide
  obtain ⟨result, -, -, hdraw, -, -, -, -, hleaves, hdrawn, hstacks⟩ :=
    RenderBin.draw_stops hreachable { entries := [2, 1, 6, 2] } (by decide)
      PipelineState.tinted {} fun e he d hd => by
        rw [hplain e he] at hd
        cases hd
  exact ⟨hreachable, result, hdraw, by rw [hleaves]; rfl, hdrawn, hstacks⟩

end SceneShading
