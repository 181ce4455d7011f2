import SceneShading.Proofs.Tree.Lineage

/-!
# Where the way between two nodes turns

The way from one node of a state tree to another goes up to the lowest node above both, their meet,
and down again. `StateTree.Turn` says which nodes it leaves on the way up and which it enters on the
way down. Both ways of finding it are measured against that: `StateTree.generalMove` climbs from the
deeper node to the depth of the other one and from there from both at once
(`WellFormed.generalMove_eq`), and siblings turn at their parent (`Turn.of_siblings`). A way turns
at one node only (`Turn.eq_of_turn`), so that both lead to the same pops and pushes
(`WellFormed.move_eq_generalMove`).
-/

namespace SceneShading

namespace StateTree

/-- The lowest node that is above two nodes. -/
structure IsMeet (t : StateTree) (c a b : TreeId) : Prop where
  left : c ∈ t.lineage a
  right : c ∈ t.lineage b
  lowest : ∀ x, x ∈ t.lineage a → x ∈ t.lineage b → x ∈ t.lineage c

/-- The way from `a` to `b` leaves some nodes up to the meet `c`, and enters others from there on.
Both are listed from below. -/
structure Turn (t : StateTree) (c a b : TreeId) (left entered : List TreeId) : Prop where
  meet : t.IsMeet c a b
  lineage_source : t.lineage a = left ++ t.lineage c
  lineage_target : t.lineage b = entered ++ t.lineage c

namespace WellFormed

variable {t : StateTree} {a b c x y : TreeId}

/-! ## Above and below -/

/-- A node is at most as deep as the nodes it is above of. -/
lemma depth_le_of_mem_lineage (ht : t.WellFormed) {d e : Nat} (hx : x ∈ t.lineage a)
    (hd : t.depth? a = some d) (he : t.depth? x = some e) : e ≤ d := by
  obtain ⟨-, below, hbelow⟩ := ht.lineage_split (contains_of_depth? hd) hx
  have hlen := congrArg List.length hbelow
  rw [List.length_append, ht.length_lineage hd, ht.length_lineage he] at hlen
  omega

/-- The lineage of a node above is the end of the lineage below. -/
lemma lineage_suffix (ht : t.WellFormed) (ha : t.contains a) (hx : x ∈ t.lineage a) :
    t.lineage x <:+ t.lineage a := by
  obtain ⟨-, below, hbelow⟩ := ht.lineage_split ha hx
  exact ⟨below, hbelow.symm⟩

/-- Of two nodes above a third one, the one that is at most as deep is above the other. -/
lemma mem_lineage_of_depth_le (ht : t.WellFormed) (ha : t.contains a) {d e : Nat}
    (hx : x ∈ t.lineage a) (hy : y ∈ t.lineage a) (he : t.depth? x = some e)
    (hd : t.depth? y = some d) (hle : e ≤ d) : x ∈ t.lineage y := by
  have hlen : (t.lineage x).length ≤ (t.lineage y).length := by
    rw [ht.length_lineage he, ht.length_lineage hd]
    omega
  have hsuffix : t.lineage x <:+ t.lineage y :=
    List.suffix_of_suffix_length_le (ht.lineage_suffix ha hx) (ht.lineage_suffix ha hy) hlen
  exact hsuffix.subset (ht.self_mem_lineage (contains_of_depth? he))

/-- Two nodes that are above each other are one node. -/
lemma eq_of_mem_lineage (ht : t.WellFormed) (ha : t.contains a) (hb : t.contains b)
    (hab : a ∈ t.lineage b) (hba : b ∈ t.lineage a) : a = b := by
  have hsuffix := ht.lineage_suffix hb hab
  have hlen := (ht.lineage_suffix ha hba).length_le
  have heq : t.lineage a = t.lineage b := hsuffix.eq_of_length_le hlen
  -- A lineage starts with its node, so that equal lineages have equal nodes.
  have hhead : ∀ {z : TreeId}, t.contains z → (t.lineage z).head? = some z := fun {z} hz => by
    obtain rfl | ⟨p, hp⟩ := ht.eq_root_or_exists_parent hz
    · rw [ht.lineage_root]
      rfl
    · rw [ht.lineage_of_parent? hp]
      rfl
  exact Option.some.inj ((hhead ha).symm.trans ((congrArg List.head? heq).trans (hhead hb)))

/-! ## Meets -/

/-- A node meets itself at itself. -/
lemma isMeet_self (ht : t.WellFormed) (ha : t.contains a) : t.IsMeet a a a :=
  ⟨ht.self_mem_lineage ha, ht.self_mem_lineage ha, fun _ hx _ => hx⟩

/-- The meet of two live nodes is live. -/
lemma contains_meet (ht : t.WellFormed) (ha : t.contains a) (h : t.IsMeet c a b) : t.contains c :=
  (ht.lineage_split ha h.left).1

/-- Two nodes have one meet. -/
lemma isMeet_unique (ht : t.WellFormed) (ha : t.contains a) (hx : t.IsMeet x a b)
    (hy : t.IsMeet y a b) : x = y :=
  ht.eq_of_mem_lineage (ht.contains_meet ha hx) (ht.contains_meet ha hy)
    (hy.lowest x hx.left hx.right) (hx.lowest y hy.left hy.right)

/-- Two different nodes at one depth meet where their parents do. -/
lemma isMeet_of_parents (ht : t.WellFormed) {p q : TreeId} {d : Nat} (hne : a ≠ b)
    (hd : t.depth? a = some d) (he : t.depth? b = some d) (hp : t.parent? a = some p)
    (hq : t.parent? b = some q) (h : t.IsMeet c p q) : t.IsMeet c a b := by
  obtain ⟨k, hpk, hak⟩ := ht.depth?_of_parent? hp
  obtain ⟨l, hql, hbl⟩ := ht.depth?_of_parent? hq
  obtain rfl := Option.some.inj (hak.symm.trans hd)
  obtain rfl : l = k := Nat.succ.inj (Option.some.inj (hbl.symm.trans he))
  constructor
  · rw [ht.lineage_of_parent? hp]
    exact List.mem_cons_of_mem a h.left
  · rw [ht.lineage_of_parent? hq]
    exact List.mem_cons_of_mem b h.right
  · intro x hxa hxb
    rw [ht.lineage_of_parent? hp, List.mem_cons] at hxa
    rw [ht.lineage_of_parent? hq, List.mem_cons] at hxb
    rcases hxa with rfl | hxa
    · rcases hxb with rfl | hxb
      · exact absurd rfl hne
      · have hle := ht.depth_le_of_mem_lineage hxb hql hak
        omega
    · rcases hxb with rfl | hxb
      · have hle := ht.depth_le_of_mem_lineage hxa hpk hbl
        omega
      · exact h.lowest x hxa hxb

/-- Two nodes meet where nodes of one depth above them meet, if one of the two is at that depth. -/
lemma isMeet_of_climb (ht : t.WellFormed) (ha : t.contains a) (hb : t.contains b) {d e k : Nat}
    (hd : t.depth? a = some d) (he : t.depth? b = some e) (hk : k = min d e)
    (hxa : x ∈ t.lineage a) (hyb : y ∈ t.lineage b) (hx : t.depth? x = some k)
    (hy : t.depth? y = some k) (h : t.IsMeet c x y) : t.IsMeet c a b := by
  constructor
  · exact (ht.lineage_suffix ha hxa).subset h.left
  · exact (ht.lineage_suffix hb hyb).subset h.right
  · intro z hza hzb
    obtain ⟨l, hl⟩ := exists_depth (ht.lineage_split ha hza).1
    have hle : l ≤ k := by
      have hla := ht.depth_le_of_mem_lineage hza hd hl
      have hlb := ht.depth_le_of_mem_lineage hzb he hl
      omega
    exact h.lowest z (ht.mem_lineage_of_depth_le ha hza hxa hl hx hle)
      (ht.mem_lineage_of_depth_le hb hzb hyb hl hy hle)

end WellFormed

/-! ## Turns -/

namespace Turn

variable {t : StateTree} {a b c c' : TreeId} {left left' entered entered' : List TreeId}

/-- The way from a node to itself does not go anywhere. -/
lemma self (ht : t.WellFormed) (ha : t.contains a) : t.Turn a a a [] [] :=
  ⟨ht.isMeet_self ha, rfl, rfl⟩

/-- A way has one turn. -/
theorem eq_of_turn (ht : t.WellFormed) (ha : t.contains a) (h : t.Turn c a b left entered)
    (h' : t.Turn c' a b left' entered') : c = c' ∧ left = left' ∧ entered = entered' := by
  obtain rfl := ht.isMeet_unique ha h.meet h'.meet
  exact ⟨rfl, List.append_cancel_right (h.lineage_source.symm.trans h'.lineage_source),
    List.append_cancel_right (h.lineage_target.symm.trans h'.lineage_target)⟩

/-- The way between different nodes at one depth goes through their parents. -/
lemma of_parents (ht : t.WellFormed) {p q : TreeId} {d : Nat} (hne : a ≠ b)
    (hd : t.depth? a = some d) (he : t.depth? b = some d) (hp : t.parent? a = some p)
    (hq : t.parent? b = some q) (h : t.Turn c p q left entered) :
    t.Turn c a b (a :: left) (b :: entered) where
  meet := ht.isMeet_of_parents hne hd he hp hq h.meet
  lineage_source := by rw [ht.lineage_of_parent? hp, h.lineage_source, List.cons_append]
  lineage_target := by rw [ht.lineage_of_parent? hq, h.lineage_target, List.cons_append]

/-- Siblings turn at their parent. -/
lemma of_siblings (ht : t.WellFormed) {p : TreeId} (hne : a ≠ b) (hp : t.parent? a = some p)
    (hq : t.parent? b = some p) : t.Turn p a b [a] [b] := by
  obtain ⟨d, hd, hda⟩ := ht.depth?_of_parent? hp
  obtain ⟨e, he, hdb⟩ := ht.depth?_of_parent? hq
  obtain rfl := Option.some.inj (he.symm.trans hd)
  exact (self ht (contains_of_depth? hd)).of_parents ht hne hda hdb hp hq

/-- The stack of the source is what is left on top of the stack of the meet. -/
lemma stack_source (h : t.Turn c a b left entered) :
    t.stack a = left.filterMap t.set? ++ t.stack c := by
  rw [stack, h.lineage_source, List.filterMap_append, stack]

/-- The stack of the target is what is entered on top of the stack of the meet. -/
lemma stack_target (h : t.Turn c a b left entered) :
    t.stack b = entered.filterMap t.set? ++ t.stack c := by
  rw [stack, h.lineage_target, List.filterMap_append, stack]

end Turn

/-! ## Climbs -/

/-- A climb starts with the step to the parent. -/
lemma climb_of_parent? {t : StateTree} {a p : TreeId} (hp : t.parent? a = some p) (steps : Nat) :
    t.climb (steps + 1) a =
      ((t.set? a).toList ++ (t.climb steps p).1, (t.climb steps p).2) := by
  obtain ⟨n, hn, hnp⟩ := Option.bind_eq_some_iff.1 hp
  rw [climb, set?, hn]
  simp only [hnp, Option.bind_some]

/-- Two climbs that have met are over. -/
lemma climbTogether_self (t : StateTree) (fuel : Nat) (a : TreeId) :
    t.climbTogether fuel a a = ([], []) := by
  cases fuel with
  | zero => rfl
  | succ fuel => rw [climbTogether, if_pos rfl]

/-- Two climbs start with the steps to the parents, unless they have met. -/
lemma climbTogether_of_parents {t : StateTree} {a b p q : TreeId} (hne : a ≠ b)
    (hp : t.parent? a = some p) (hq : t.parent? b = some q) (fuel : Nat) :
    t.climbTogether (fuel + 1) a b =
      ((t.set? a).toList ++ (t.climbTogether fuel p q).1,
        (t.set? b).toList ++ (t.climbTogether fuel p q).2) := by
  obtain ⟨m, hm, hmp⟩ := Option.bind_eq_some_iff.1 hp
  obtain ⟨n, hn, hnq⟩ := Option.bind_eq_some_iff.1 hq
  rw [climbTogether, if_neg hne, set?, set?, hm, hn]
  simp only [hmp, hnq, Option.bind_some]

/-- Siblings hang below one parent. -/
lemma exists_parent_of_areSiblings {t : StateTree} {a b : TreeId} {m n : TreeNode}
    (hm : t.node? a = some m) (hn : t.node? b = some n) (h : areSiblings m n = true) :
    ∃ p, t.parent? a = some p ∧ t.parent? b = some p := by
  obtain ⟨hsome, heq⟩ := Bool.and_eq_true_iff.1 h
  obtain ⟨p, hp⟩ := Option.isSome_iff_exists.1 hsome
  refine ⟨p, ?_, ?_⟩
  · rw [parent?, hm, Option.bind_some, hp]
  · rw [parent?, hn, Option.bind_some, ← eq_of_beq heq, hp]

/-- The set of a first node goes before those of the others. -/
lemma filterMap_set_cons (t : StateTree) (a : TreeId) (nodes : List TreeId) :
    (a :: nodes).filterMap t.set? = (t.set? a).toList ++ nodes.filterMap t.set? := by
  rw [List.filterMap_cons]
  cases t.set? a <;> rfl

namespace WellFormed

variable {t : StateTree} {a b c : TreeId}

/-- A climb that stays in the tree leaves the nodes between its ends. -/
lemma climb_eq (ht : t.WellFormed) {steps d : Nat} (hd : t.depth? a = some (d + steps)) :
    ∃ below top, t.depth? top = some d ∧ t.lineage a = below ++ t.lineage top ∧
      t.climb steps a = (below.filterMap t.set?, top) := by
  induction steps generalizing a with
  | zero => exact ⟨[], a, hd, rfl, rfl⟩
  | succ steps ih =>
    obtain rfl | ⟨p, hp⟩ := ht.eq_root_or_exists_parent (contains_of_depth? hd)
    · cases ht.depth_root.symm.trans hd
    · obtain ⟨e, he, hea⟩ := ht.depth?_of_parent? hp
      obtain rfl : e = d + steps := Nat.succ.inj (Option.some.inj (hea.symm.trans hd))
      obtain ⟨below, top, htop, hbelow, hclimb⟩ := ih he
      refine ⟨a :: below, top, htop, ?_, ?_⟩
      · rw [ht.lineage_of_parent? hp, hbelow, List.cons_append]
      · rw [climb_of_parent? hp, hclimb, filterMap_set_cons]

/-- Two climbs from one depth leave the nodes up to the turn, if they have fuel for the root. -/
lemma climbTogether_eq (ht : t.WellFormed) {fuel d : Nat} (hfuel : d < fuel)
    (hd : t.depth? a = some d) (he : t.depth? b = some d) :
    ∃ c left entered, t.Turn c a b left entered ∧
      t.climbTogether fuel a b = (left.filterMap t.set?, entered.filterMap t.set?) := by
  induction fuel generalizing a b d with
  | zero => exact absurd hfuel (Nat.not_lt_zero d)
  | succ fuel ih =>
    by_cases hne : a = b
    · subst hne
      exact ⟨a, [], [], .self ht (contains_of_depth? hd), t.climbTogether_self _ a⟩
    · -- Different nodes at one depth are not the root, so that both have parents.
      obtain rfl | ⟨p, hp⟩ := ht.eq_root_or_exists_parent (contains_of_depth? hd)
      · obtain rfl := Option.some.inj (ht.depth_root.symm.trans hd)
        exact absurd (ht.eq_root_of_depth?_zero he).symm hne
      · obtain rfl | ⟨q, hq⟩ := ht.eq_root_or_exists_parent (contains_of_depth? he)
        · obtain rfl := Option.some.inj (ht.depth_root.symm.trans he)
          exact absurd (ht.eq_root_of_depth?_zero hd) hne
        · obtain ⟨k, hpk, hak⟩ := ht.depth?_of_parent? hp
          obtain ⟨l, hql, hbl⟩ := ht.depth?_of_parent? hq
          obtain rfl := Option.some.inj (hak.symm.trans hd)
          obtain rfl : l = k := Nat.succ.inj (Option.some.inj (hbl.symm.trans he))
          obtain ⟨c, left, entered, hturn, hclimb⟩ := ih (Nat.lt_of_succ_lt_succ hfuel) hpk hql
          refine ⟨c, a :: left, b :: entered, hturn.of_parents ht hne hd he hp hq, ?_⟩
          rw [climbTogether_of_parents hne hp hq, hclimb, filterMap_set_cons, filterMap_set_cons]

/-! ## Moves -/

/-- The general move pops the sets of the nodes left and pushes those of the nodes entered. -/
theorem generalMove_eq (ht : t.WellFormed) {m n : TreeNode} (hm : t.node? a = some m)
    (hn : t.node? b = some n) : ∃ c left entered, t.Turn c a b left entered ∧
      t.generalMove a b m n = turn (left.filterMap t.set?) (entered.filterMap t.set?) := by
  have hd : t.depth? a = some m.depth := by rw [depth?, hm, Option.map_some]
  have he : t.depth? b = some n.depth := by rw [depth?, hn, Option.map_some]
  have hd' : t.depth? a = some (min m.depth n.depth + (m.depth - n.depth)) := by
    rw [hd]
    congr 1
    omega
  have he' : t.depth? b = some (min m.depth n.depth + (n.depth - m.depth)) := by
    rw [he]
    congr 1
    omega
  obtain ⟨left, x, hx, hleft, hclimb⟩ := ht.climb_eq hd'
  obtain ⟨entered, y, hy, hentered, hclimb'⟩ := ht.climb_eq he'
  obtain ⟨c, left', entered', hturn, htogether⟩ :=
    ht.climbTogether_eq (Nat.lt_add_one (min m.depth n.depth)) hx hy
  have hxa : x ∈ t.lineage a := by
    rw [hleft]
    exact List.mem_append_right left (ht.self_mem_lineage (contains_of_depth? hx))
  have hyb : y ∈ t.lineage b := by
    rw [hentered]
    exact List.mem_append_right entered (ht.self_mem_lineage (contains_of_depth? hy))
  refine ⟨c, left ++ left', entered ++ entered', ⟨?_, ?_, ?_⟩, ?_⟩
  · exact ht.isMeet_of_climb (contains_of_depth? hd) (contains_of_depth? he) hd he rfl hxa hyb
      hx hy hturn.meet
  · rw [hleft, hturn.lineage_source, List.append_assoc]
  · rw [hentered, hturn.lineage_target, List.append_assoc]
  · simp only [generalMove, hclimb, hclimb', htogether, List.filterMap_append]

/-- The short way between siblings is the general one. -/
theorem turn_eq_generalMove (ht : t.WellFormed) {m n : TreeNode} (hm : t.node? a = some m)
    (hn : t.node? b = some n) (hne : a ≠ b) (h : areSiblings m n = true) :
    turn m.set.toList n.set.toList = t.generalMove a b m n := by
  obtain ⟨p, hp, hq⟩ := exists_parent_of_areSiblings hm hn h
  obtain ⟨c, left, entered, hturn, hmove⟩ := ht.generalMove_eq hm hn
  obtain ⟨rfl, rfl, rfl⟩ :=
    hturn.eq_of_turn ht (contains_of_parent? hp) (Turn.of_siblings ht hne hp hq)
  rw [hmove, filterMap_set_cons, filterMap_set_cons, set?, set?, hm, hn]
  simp

/-- Every move between live nodes is the general one. -/
theorem move_eq_generalMove (ht : t.WellFormed) {m n : TreeNode} (hm : t.node? a = some m)
    (hn : t.node? b = some n) : t.move (some a) b = some (t.generalMove a b m n) := by
  by_cases hne : a = b
  · subst hne
    have ha : t.contains a := by rw [contains, hm, Option.isSome_some]
    obtain ⟨c, left, entered, hturn, hmove⟩ := ht.generalMove_eq hm hn
    obtain ⟨-, rfl, rfl⟩ := hturn.eq_of_turn ht ha (.self ht ha)
    rw [move, if_pos rfl, hmove]
    rfl
  · simp only [move, if_neg hne, hm, hn, Option.bind_eq_bind, Option.bind_some]
    split_ifs with h
    · rw [ht.turn_eq_generalMove hm hn hne h]
      rfl
    · rfl

/-- A move between live nodes pops what it leaves up to the meet and pushes what it enters. -/
theorem move_eq (ht : t.WellFormed) (ha : t.contains a) (hb : t.contains b) :
    ∃ c left entered, t.Turn c a b left entered ∧
      t.move (some a) b = some (turn (left.filterMap t.set?) (entered.filterMap t.set?)) := by
  obtain ⟨m, hm⟩ := Option.isSome_iff_exists.1 ha
  obtain ⟨n, hn⟩ := Option.isSome_iff_exists.1 hb
  obtain ⟨c, left, entered, hturn, hmove⟩ := ht.generalMove_eq hm hn
  exact ⟨c, left, entered, hturn, by rw [ht.move_eq_generalMove hm hn, hmove]⟩

end WellFormed

/-- From outside the tree a move pushes the whole stack of its target. -/
theorem move_none (t : StateTree) {b : TreeId} (hb : t.contains b) :
    t.move none b = some (turn [] (t.stack b)) := by
  obtain ⟨n, hn⟩ := Option.isSome_iff_exists.1 hb
  rw [move, hn, Option.map_some, chain_eq_stack]

/-- Out of the tree the whole stack of a node is popped. -/
theorem popToRoot_eq (t : StateTree) {a : TreeId} (ha : t.contains a) :
    t.popToRoot a = some (turn (t.stack a) []) := by
  obtain ⟨n, hn⟩ := Option.isSome_iff_exists.1 ha
  rw [popToRoot, hn, Option.map_some, chain_eq_stack]

end StateTree

end SceneShading
