import Mathlib.Tactic
import SceneShading.Proofs.Graph.Flow
import SceneShading.Proofs.Graph.Walk

/-!
# Values before reads

A walk lists the operations that write a variable before every operation that reads it
(`Graph.Flow.listed_before`). Inputs of the graph form circles around lights, but none of these
circles leads from a variable back to an operation that reads it: all operations that a variable
leads to are as old as those that write it, and these are older than the reader.
-/

namespace SceneShading

namespace Graph

variable {g : Graph} {roots roots' before after : List NodeId} {i j id other : NodeId}

/-- The node of a variable is no operation. -/
lemma exists_node_of_declared? (h : (g.declared? id).isSome) :
    ∃ n, g.node? id = some n ∧ n.kind.isOperation = false := by
  obtain ⟨v, hv⟩ := Option.isSome_iff_exists.1 h
  obtain ⟨n, hn, hkind⟩ := Option.bind_eq_some_iff.1 hv
  refine ⟨n, hn, ?_⟩
  by_contra hne
  rw [NodeKind.declared?_of_isOperation (Bool.eq_true_of_not_eq_false hne)] at hkind
  cases hkind

/-- There is a node of every operation. -/
lemma isSome_node?_of_writes (h : g.Writes j id) : (g.node? j).isSome := by
  obtain ⟨o, ho, -⟩ := h
  obtain ⟨n, hn, -⟩ := operation?_eq_some_iff.1 ho
  rw [hn, Option.isSome_some]

/-- A walk that lists a variable lists the operations that write it. -/
lemma Flow.mem_traverse_of_writes {opened walkRoots : List NodeId} (h : g.Flow roots opened)
    (hid : id ∈ g.traverse walkRoots) (hv : (g.declared? id).isSome) (hwrites : g.Writes j id) :
    j ∈ g.traverse walkRoots := by
  obtain ⟨n, hn, hvariable⟩ := exists_node_of_declared? hv
  exact mem_traverse_of_input hid hn ((h.linked id n hn hvariable j).2 hwrites)
    (isSome_node?_of_writes hwrites)

/-- The node is no operation or an older one, and so are all operations that write it. -/
structure Older (g : Graph) (i id : NodeId) : Prop where
  self : (g.operation? id).isSome → id < i
  writers : ∀ j, g.Writes j id → j < i

namespace Sound

/-- What an operation of a sound graph reads is no operation. -/
lemma operation?_of_reads (h : Sound roots g) (hreads : g.Reads i id) : g.operation? id = none := by
  have hdeclared := h.declared?_of_reads hreads
  cases hid : g.operation? id with
  | none => rfl
  | some o =>
    obtain ⟨n, hn, hkind, -⟩ := operation?_eq_some_iff.1 hid
    rw [declared?, hn, Option.bind_some, NodeKind.declared?_of_isOperation hkind] at hdeclared
    cases hdeclared

/-- What an operation of a sound graph writes is no operation. -/
lemma operation?_of_writes (h : Sound roots g) (hwrites : g.Writes i id) :
    g.operation? id = none := by
  have hoperand := (h.writable_of_writes hwrites).1
  cases hid : g.operation? id with
  | none => rfl
  | some o =>
    obtain ⟨n, hn, hkind, -⟩ := operation?_eq_some_iff.1 hid
    rw [operand?, hn, Option.bind_some, NodeKind.operand?_of_isOperation hkind] at hoperand
    cases hoperand

end Sound

namespace Flow

variable (h : g.Flow roots []) (hsound : g.Sound roots')

include h hsound

/-- An input of an older node is older. -/
lemma older_input {n : Node} (holder : g.Older i id) (hn : g.node? id = some n)
    (hinput : other ∈ n.inputNodes) : g.Older i other := by
  by_cases hoperation : n.kind.isOperation = true
  · -- an operation, and a variable that it reads
    have ho : g.operation? id = some ⟨n.kind, n.inputs, n.outputs.targets⟩ :=
      operation?_eq_some_iff.2 ⟨n, hn, hoperation, rfl⟩
    have hreads : g.Reads id other := ⟨_, ho, hinput⟩
    have hid : id < i := holder.self (by rw [ho, Option.isSome_some])
    refine ⟨fun hsome => ?_, fun j hj => ?_⟩
    · rw [hsound.operation?_of_reads hreads] at hsome
      cases hsome
    · rcases h.ordered id j other hreads hj with hlt | ⟨rfl, -⟩
      · exact hlt.trans hid
      · exact hid
  · -- a variable, and an operation that writes it
    have hwrites : g.Writes other id :=
      (h.linked id n hn (Bool.eq_false_of_not_eq_true hoperation) other).1 hinput
    have hother : g.operation? other ≠ none := by
      obtain ⟨o, ho, -⟩ := hwrites
      rw [ho]
      exact Option.some_ne_none o
    exact ⟨fun _ => holder.writers other hwrites,
      fun j hj => absurd (hsound.operation?_of_writes hj) hother⟩

/-- What an older node leads to is older. -/
lemma older_of_reaches (holder : g.Older i id) (hreaches : g.Reaches id other) :
    g.Older i other := by
  induction hreaches with
  | refl => exact holder
  | tail _ hedge ih =>
    obtain ⟨n, hn, hinput⟩ := hedge
    exact older_input h hsound ih hn hinput

/-- An older node does not lead to the operation. -/
lemma not_reaches_of_older (holder : g.Older i id) (hi : (g.operation? i).isSome) :
    ¬g.Reaches id i := fun hreaches =>
  lt_irrefl i ((older_of_reaches h hsound holder hreaches).self hi)

/-- All operations that write a variable are listed before the operations that read it, unless the
reader takes it as an out-parameter only. -/
theorem listed_before {walkRoots : List NodeId}
    (hsplit : g.traverse walkRoots = before ++ i :: after) (hreads : g.Reads i id)
    (hhands : ¬g.Hands i id) (hwrites : g.Writes j id) : j ∈ before := by
  have hordered := g.ordered_traverse walkRoots before i after hsplit
  obtain ⟨o, ho, hid⟩ := hreads
  obtain ⟨n, hn, hoperation, rfl⟩ := operation?_eq_some_iff.1 ho
  have hreads : g.Reads i id := ⟨_, ho, hid⟩
  have hi : (g.operation? i).isSome := by rw [ho, Option.isSome_some]
  have holder : g.Older i id := by
    refine ⟨fun hsome => ?_, fun j hj => ?_⟩
    · rw [hsound.operation?_of_reads hreads] at hsome
      cases hsome
    · exact (h.ordered i j id hreads hj).resolve_right fun hself => hhands hself.2
  -- first the variable is listed, and with it everything that writes it
  obtain ⟨m, hm, hvariable⟩ := exists_node_of_declared? (hsound.declared?_of_reads hreads)
  have hlisted : id ∈ before := by
    refine (hordered i List.mem_cons_self n hn id hid ?_).resolve_right
      (not_reaches_of_older h hsound holder hi)
    rw [hm, Option.isSome_some]
  have hinput : j ∈ m.inputNodes := (h.linked id m hm hvariable j).2 hwrites
  exact (hordered id (List.mem_cons_of_mem _ hlisted) m hm j hinput
    (isSome_node?_of_writes hwrites)).resolve_right
      (not_reaches_of_older h hsound (older_input h hsound holder hm hinput) hi)

end Flow

end Graph

end SceneShading
