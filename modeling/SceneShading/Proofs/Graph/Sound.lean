import Mathlib.Tactic
import SceneShading.Codegen.Operand
import SceneShading.Codegen.Snippet
import SceneShading.Proofs.Graph.Vocabulary

/-!
# Sound graphs

A graph is sound (`Graph.Sound`) if nothing went wrong while it was built and nothing can go wrong
when it is compiled: its registry and its variables are the same thing seen from two sides, every
variable has the type that its name stands for, and every operation is wired to variables, with all
the pins that its kind needs. The roots of a graph are fixed from the start, because an operation may
write a variable of file scope only if that variable is a root.

Requests change a sound graph in few ways: they add a variable under a name that is free
(`Sound.insertVariable`, `Sound.insertVarying`), add a node without wiring (`Sound.insert`), add an
operation (`Sound.operation`) or comment on a node (`Sound.setComment`). No request changes what an
older node is (`Grows`), and that is all that operations ask of the nodes they are wired to.
-/

namespace SceneShading

/-! ## Registries -/

namespace Registry

variable {r : Registry} {name : String}

/-- A name is registered if it has a node. -/
lemma contains_eq_isSome (r : Registry) (name : String) :
    r.contains name = (r.find? name).isSome := by
  obtain ⟨entries⟩ := r
  rw [contains, find?]
  induction entries with
  | nil => rfl
  | cons e es ih =>
    rw [List.any_cons, List.lookup_cons, ih]
    by_cases h : e.1 = name
    · subst h
      simp
    · rw [beq_false_of_ne h, beq_false_of_ne (Ne.symm h), Bool.false_or]

/-- An entry after a name is registered: the new one, or an old one. -/
lemma mem_register {id : NodeId} {e : String × NodeId} (he : e ∈ (r.register name id).entries) :
    e ∈ r.entries ∨ e = (name, id) := by
  unfold register at he
  split at he
  · obtain ⟨old, hold, rfl⟩ := List.mem_map.1 he
    split
    · exact .inr rfl
    · exact .inl hold
  · exact (List.mem_append.1 he).imp_right List.mem_singleton.1

/-- The nodes of names after a name is registered, be it free or taken. -/
lemma find?_register (r : Registry) (name : String) (id : NodeId) (other : String) :
    (r.register name id).find? other = if other = name then some id else r.find? other := by
  obtain ⟨entries⟩ := r
  -- an entry of a name that is registered again keeps its place
  have hmoved : (entries.map fun e => if e.1 = name then (name, id) else e).lookup other =
      if other = name ∧ (entries.lookup name).isSome then some id else entries.lookup other := by
    induction entries with
    | nil => simp
    | cons e es ih =>
      rw [List.map_cons, List.lookup_cons, List.lookup_cons, List.lookup_cons, ih]
      by_cases hname : e.1 = name <;> by_cases hother : other = name <;> grind
  rw [register, contains_eq_isSome]
  split
  next htaken =>
    rw [find?] at htaken ⊢
    rw [hmoved]
    simp only [htaken, and_true]
    rfl
  next hfree =>
    have hnone : entries.lookup name = none := Option.not_isSome_iff_eq_none.1 hfree
    change (entries ++ [(name, id)]).lookup other = if other = name then some id else entries.lookup other
    rw [List.lookup_append, List.lookup_cons, List.lookup_nil]
    by_cases h : other = name
    · rw [h, hnone, if_pos rfl, beq_self_eq_true, Option.none_or]
    · rw [if_neg h, beq_false_of_ne h, Option.or_none]

/-- What an entry says is what is found, if no name has two entries. -/
lemma find?_of_mem_entries (hnodup : r.names.Nodup) {e : String × NodeId} (he : e ∈ r.entries) :
    r.find? e.1 = some e.2 := by
  obtain ⟨before, after, hsplit⟩ := List.append_of_mem he
  refine List.lookup_eq_some_iff.2 ⟨before, after, hsplit, fun other hother => ?_⟩
  rw [names, hsplit, List.map_append, List.map_cons, List.nodup_append] at hnodup
  have hne := hnodup.2.2 other.1 (List.mem_map_of_mem hother) e.1 List.mem_cons_self
  exact bne_iff_ne.2 (Ne.symm hne)

/-- A registry holds one name more after a free name is registered. -/
lemma size_register (hfree : r.find? name = none) (id : NodeId) :
    (r.register name id).size = r.size + 1 := by
  have hcontains : ¬r.contains name = true := by
    rw [contains_eq_isSome, hfree]
    exact Bool.false_ne_true
  rw [register, if_neg hcontains, size, List.length_append, List.length_singleton, size]

end Registry

/-! ## Snippets -/

namespace Snippet

/-- A part of a snippet, character by character, with the pin that it mentions. -/
def Part.tokens : Part → List (Char ⊕ String)
  | .text chars => chars.map .inl
  | .pin name => [.inr (String.ofList name)]

/-- A snippet, character by character, with the pins that it mentions. -/
def tokens (code : String) : List (Char ⊕ String) := (parts code.toList).flatMap Part.tokens

/-- The pins among tokens. -/
def pinsOf (tokens : List (Char ⊕ String)) : List String := tokens.filterMap Sum.getRight?

/-- The pins that a snippet mentions. -/
def pins (code : String) : List String := pinsOf (tokens code)

/-- The pin that a statement of a snippet assigns a value to as a whole, before it reads anything. -/
def assigned? : List (Char ⊕ String) → Option String
  | .inr pin :: .inl ' ' :: .inl '=' :: .inl ' ' :: _ => some pin
  | _ => none

/-- The statements of a snippet, each from its first character that is no blank. -/
def statements (tokens : List (Char ⊕ String)) : List (List (Char ⊕ String)) :=
  (tokens.splitOnP (· == .inl ';')).map fun statement =>
    statement.dropWhile fun t => t.isLeft && t.getLeft?.any Char.isWhitespace

/-- The pins that the statements of a snippet assign a value to as a whole. -/
def assignedIn (tokens : List (Char ⊕ String)) : List String :=
  (statements tokens).filterMap assigned?

/-- The pins that a snippet assigns a value to. -/
def assigned (code : String) : List String := assignedIn (tokens code)

/-- The pins that the statements of a snippet mention when they have no value from the snippet: what
was assigned so far, and the statements to come. -/
def exposedFrom : List String → List (List (Char ⊕ String)) → List String
  | _, [] => []
  | assigned, statement :: statements =>
    let read := if (assigned? statement).isSome then pinsOf statement.tail else pinsOf statement
    read.filter (!assigned.contains ·) ++
      exposedFrom ((assigned? statement).toList ++ assigned) statements

/-- The pins whose variables a snippet reads: those that it mentions before it assigned them a value
itself. -/
def exposed (code : String) : List String := exposedFrom [] (statements (tokens code))

end Snippet

/-! ## Nodes -/

/-- The pins of a light whose variables its function writes: its out-parameters. -/
def LightModel.outPins : LightModel → List String
  | .point | .spot => "lightEyePos" :: sharedPins.map (·.name)
  | .sun | .hemi => sharedPins.map (·.name)

variable {g g' g'' : Graph} {roots : List NodeId} {id j : NodeId} {kind : NodeKind}

namespace NodeKind

/-- The pins whose variables the function of an operation writes although they are inputs. -/
def outPins : NodeKind → List String
  | .light model => model.outPins
  | _ => []

/-- The node computes something: it is no variable, no built-in output and no definition. -/
def isOperation : NodeKind → Bool
  | .var _ | .output _ | .define .. => false
  | _ => true

/-- Operations stand for no operand. -/
lemma operand?_of_isOperation {kind : NodeKind} (h : kind.isOperation = true) :
    kind.operand? = none := by
  cases kind <;> first | rfl | exact absurd h Bool.false_ne_true

/-- Operations are no variables. -/
lemma declared?_of_isOperation {kind : NodeKind} (h : kind.isOperation = true) :
    kind.declared? = none := by
  cases kind <;> first | rfl | exact absurd h Bool.false_ne_true

/-- Operations are no built-in outputs. -/
lemma isOutput_of_isOperation {kind : NodeKind} (h : kind.isOperation = true) :
    kind.isOutput = false := by
  cases kind <;> first | rfl | exact absurd h Bool.false_ne_true

end NodeKind

namespace Node

/-- Wiring a node leaves it what it is. -/
lemma kind_withInputs (n : Node) (inputs : InputSet) : (n.withInputs inputs).kind = n.kind := by
  cases inputs <;> rfl

/-- The node after it became a further input of targets, with the number of times that it did. -/
def linked (id : NodeId) (times : Nat) (n : Node) : Node :=
  { n with inputs := n.inputs ++ List.replicate times (none, .node id) }

/-- A node that is no target stays as it is. -/
lemma linked_zero (id : NodeId) : linked id 0 = fun n => n := by
  funext n
  rw [linked, List.replicate_zero, List.append_nil]

/-- A node that becomes a target once and then some more times. -/
lemma linked_comp (id : NodeId) (times times' : Nat) :
    linked id times' ∘ linked id times = linked id (times' + times) := by
  funext n
  rw [Function.comp_apply, linked, linked, linked, List.append_assoc,
    List.replicate_append_replicate, Nat.add_comm]

/-- The inputs of a node that became a target. -/
lemma mem_inputNodes_linked_iff {n : Node} {id source : NodeId} {times : Nat} :
    source ∈ (n.linked id times).inputNodes ↔ source ∈ n.inputNodes ∨ (id = source ∧ times ≠ 0) := by
  have hnodes : (n.linked id times).inputNodes = n.inputNodes ++ List.replicate times id := by
    rw [inputNodes, linked, List.filterMap_append,
      List.filterMap_replicate_of_some (f := fun input : Option String × Source => input.2.node?) rfl]
    rfl
  rw [hnodes, List.mem_append, List.mem_replicate, and_comm, eq_comm (a := source)]

/-- The node has what its kind needs to become a statement: all required pins, something to combine
if it combines its inputs, and every pin that its code mentions. -/
def Complete (n : Node) : Prop :=
  n.validate = .ok () ∧
    match n.kind with
    | .add | .mult | .setFromNode => n.inputs ≠ [] ∧ n.outputs.first?.isSome
    | .inlineCode code =>
      IsPlain code ∧ ∀ name, .pin name ∈ Snippet.parts code.toList →
        (n.outputs.pins.lookup (String.ofList name)).isSome ∨ (n.input? (String.ofList name)).isSome
    | _ => True

/-- The statement of the node assigns a value to the variable: it is the target that the kind of the
node asks for, or an out-parameter, or the code of the node assigns to it. -/
def Assigns (n : Node) (id : NodeId) : Prop :=
  match n.kind with
  | .add | .mult | .setFromNode => n.outputs.first? = some id
  | .inlineCode code => ∃ pin ∈ Snippet.assigned code, n.outputs.pins.lookup pin = some id
  | kind => (∃ pin ∈ kind.requiredOutputs, n.outputs.get? pin = some id) ∨
      ∃ pin ∈ kind.outPins, n.input? pin = some (.node id)

end Node

namespace Graph

/-- What a node is. -/
def kind? (g : Graph) (id : NodeId) : Option NodeKind := (g.node? id).map (·.kind)

/-- The variable of a node depends on what the node is. -/
lemma declared?_eq (g : Graph) (id : NodeId) :
    g.declared? id = (g.kind? id).bind NodeKind.declared? := by
  rw [declared?, kind?, Option.bind_map]
  rfl

/-- The operand of a node depends on what the node is. -/
lemma operand?_eq (g : Graph) (id : NodeId) :
    g.operand? id = (g.kind? id).bind NodeKind.operand? := by
  rw [operand?, kind?, Option.bind_map]
  rfl

/-- The numbers of nodes are those below the number of nodes. -/
lemma kind?_eq_none_iff : g.kind? id = none ↔ g.size ≤ id := by
  rw [kind?, Option.map_eq_none_iff, node?, Array.getElem?_eq_none_iff, size]

/-- An operand exists. -/
lemma lt_size_of_operand? (h : (g.operand? id).isSome) : id < g.size := by
  by_contra hle
  rw [operand?_eq, kind?_eq_none_iff.2 (not_lt.1 hle)] at h
  cases h

/-- A variable exists. -/
lemma lt_size_of_declared? {v : Variable} (h : g.declared? id = some v) : id < g.size := by
  by_contra hle
  rw [declared?_eq, kind?_eq_none_iff.2 (not_lt.1 hle)] at h
  cases h

/-- A variable is an operand. -/
lemma operand?_of_declared? {v : Variable} (h : g.declared? id = some v) :
    g.operand? id = some ⟨v.name, some v.type⟩ := by
  rw [declared?_eq] at h
  obtain ⟨kind, hkind, hv⟩ := Option.bind_eq_some_iff.1 h
  rw [operand?_eq, hkind, Option.bind_some]
  cases kind with
  | var w =>
    cases hv
    rfl
  | _ => exact absurd hv (by simp [NodeKind.declared?])

/-! ## Changes -/

/-- The graphs differ in their nodes and their journals only. -/
structure Framed (g g' : Graph) : Prop where
  registry : g'.registry = g.registry
  varyings : g'.varyings = g.varyings
  diagnostics : g'.diagnostics = g.diagnostics
  fault : g'.fault = g.fault

/-- Nothing changed. -/
lemma Framed.refl (g : Graph) : Framed g g := ⟨rfl, rfl, rfl, rfl⟩

/-- One change after another. -/
lemma Framed.trans (h : Framed g g') (h' : Framed g' g'') : Framed g g'' :=
  ⟨h'.registry.trans h.registry, h'.varyings.trans h.varyings,
    h'.diagnostics.trans h.diagnostics, h'.fault.trans h.fault⟩

/-- A note changes the journal. -/
lemma noteIf_framed (g : Graph) (condition : Bool) (n : Notice) : Framed g (g.noteIf condition n) := by
  rw [noteIf]
  split <;> exact ⟨rfl, rfl, rfl, rfl⟩

/-- A note leaves the nodes alone. -/
lemma node?_noteIf (g : Graph) (condition : Bool) (n : Notice) (j : NodeId) :
    (g.noteIf condition n).node? j = g.node? j := by
  rw [noteIf]
  split <;> rfl

/-- A new node changes the nodes. -/
lemma insert_framed (g : Graph) (kind : NodeKind) : Framed g (g.insert kind).2 := ⟨rfl, rfl, rfl, rfl⟩

/-- The nodes after a new one is added. -/
lemma node?_insert (g : Graph) (kind : NodeKind) (j : NodeId) :
    (g.insert kind).2.node? j = if j = g.size then some { id := g.size, kind } else g.node? j := by
  rw [node?, insert, Array.getElem?_push, node?, size]

/-- What the nodes are after a new one is added. -/
lemma kind?_of_node? (h : ∀ j, g'.node? j = if j = g.size then some { id := g.size, kind } else g.node? j)
    (j : NodeId) : g'.kind? j = if j = g.size then some kind else g.kind? j := by
  rw [kind?, h]
  split <;> rfl

/-- The nodes of names after a variable is added. -/
lemma find?_insertVariable (g : Graph) (v : Variable) (name : String) :
    (g.insertVariable v).2.find? name = if name = v.name then some g.size else g.find? name :=
  g.registry.find?_register v.name g.size name

/-- A node that exists can be changed. -/
lemma modify_framed (h : id < g.size) (f : Node → Node) : Framed g (g.modify id f) := by
  rw [modify, if_pos h]
  exact ⟨rfl, rfl, rfl, rfl⟩

/-- The nodes after one of them is changed. -/
lemma node?_modify (h : id < g.size) (f : Node → Node) (j : NodeId) :
    (g.modify id f).node? j = if j = id then (g.node? j).map f else g.node? j := by
  rw [modify, if_pos h, node?, Array.getElem?_modify, node?]
  split
  next hj => rw [if_pos hj.symm]
  next hj => rw [if_neg (Ne.symm hj)]

/-- The number of nodes stays the same when one of them is changed. -/
lemma size_modify (id : NodeId) (f : Node → Node) : (g.modify id f).size = g.size := by
  rw [modify]
  split
  · rw [size, Array.size_modify, size]
  · rfl

/-- Linking a target changes its wiring. -/
lemma linkTarget_framed (id : NodeId) (g : Graph) (target : NodeId) :
    Framed g (linkTarget id g target) := by
  rw [linkTarget]
  split
  next h => exact modify_framed h _
  next => exact ⟨rfl, rfl, rfl, rfl⟩

/-- The nodes after a target is linked to a node. -/
lemma node?_linkTarget (id : NodeId) (g : Graph) (target j : NodeId) :
    (linkTarget id g target).node? j =
      (g.node? j).map (Node.linked id (if target == j then 1 else 0)) := by
  rw [linkTarget]
  split
  next ht =>
    rw [wireInputs, node?_modify ht]
    by_cases hj : j = target
    · subst hj
      rw [if_pos rfl, beq_self_eq_true, if_pos rfl]
      rfl
    · rw [if_neg hj, beq_false_of_ne (Ne.symm hj), if_neg Bool.false_ne_true, Node.linked_zero,
        Option.map_id']
  next ht =>
    -- a target that does not exist leaves a note
    have hnote : (g.note (.missingTarget target id)).node? j = g.node? j := rfl
    rw [hnote]
    by_cases hj : target = j
    · subst hj
      have hnone : g.node? target = none := Array.getElem?_eq_none_iff.2 (not_lt.1 ht)
      rw [hnone, Option.map_none]
    · rw [beq_false_of_ne hj, if_neg Bool.false_ne_true, Node.linked_zero, Option.map_id']

/-- The nodes after targets are linked to a node. -/
lemma node?_linkTargets (id : NodeId) (targets : List NodeId) (g : Graph) (j : NodeId) :
    (targets.foldl (linkTarget id) g).node? j =
      (g.node? j).map (Node.linked id (targets.count j)) := by
  induction targets generalizing g with
  | nil => rw [List.foldl_nil, List.count_nil, Node.linked_zero, Option.map_id']
  | cons t ts ih =>
    rw [List.foldl_cons, ih, node?_linkTarget, Option.map_map, Node.linked_comp, List.count_cons]

/-- Linking targets changes their wiring. -/
lemma linkTargets_framed (id : NodeId) (targets : List NodeId) (g : Graph) :
    Framed g (targets.foldl (linkTarget id) g) := by
  induction targets generalizing g with
  | nil => exact .refl g
  | cons t ts ih => exact (linkTarget_framed id g t).trans (ih _)

/-- The number of nodes stays the same when targets are linked. -/
lemma size_linkTargets (id : NodeId) (targets : List NodeId) (g : Graph) :
    (targets.foldl (linkTarget id) g).size = g.size := by
  induction targets generalizing g with
  | nil => rfl
  | cons t ts ih =>
    rw [List.foldl_cons, ih, linkTarget]
    split
    · exact size_modify _ _
    · rfl

/-- The new node of an operation, and what becomes of the older ones: the targets of the operation
have it as a further input. -/
lemma operation_effect {inputs : InputSet} {outputs : Outputs} (hkind : kind.isOperation = true)
    (hnew : g.size ∉ outputs.targets) :
    (Builder.operation kind inputs outputs g).1 = g.size ∧
      Framed g (Builder.operation kind inputs outputs g).2 ∧
      ∀ j, (Builder.operation kind inputs outputs g).2.node? j =
        if j = g.size then
          some { ({ id := g.size, kind : Node }.withInputs inputs) with outputs }
        else (g.node? j).map (Node.linked g.size (outputs.targets.count j)) := by
  let new : Node := { id := g.size, kind }
  let placed := (g.insert kind).2
  let wired := placed.wireInputs g.size inputs
  let linked := outputs.targets.foldl (linkTarget g.size) wired
  have hplaced : g.size < placed.size := by
    simp only [placed, size, insert, Array.size_push]
    exact Nat.lt_succ_self _
  have hwired : wired.node? g.size = some (new.withInputs inputs) := by
    simp only [wired, wireInputs]
    rw [node?_modify hplaced, if_pos rfl, node?_insert, if_pos rfl, Option.map_some]
  have hsize : g.size < linked.size := by
    simp only [linked, wired, wireInputs]
    rw [size_linkTargets, size_modify]
    exact hplaced
  have hkept : (new.withInputs inputs).kind = kind := new.kind_withInputs inputs
  have hresult : Builder.operation kind inputs outputs g =
      (g.size, linked.modify g.size fun n => { n with outputs }) := by
    have houtput : ¬(new.withInputs inputs).kind.isOutput = true := by
      rw [hkept, NodeKind.isOutput_of_isOperation hkind]
      exact Bool.false_ne_true
    change (g.size, wired.wireOutputs g.size outputs) = _
    rw [wireOutputs, hwired]
    simp only [if_neg houtput, linked]
  rw [hresult]
  refine ⟨rfl, ?_, fun j => ?_⟩
  · exact ((insert_framed g kind).trans (modify_framed hplaced _)).trans
      ((linkTargets_framed _ _ _).trans (modify_framed hsize _))
  · rw [node?_modify hsize]
    have hlinked : linked.node? j =
        (wired.node? j).map (Node.linked g.size (outputs.targets.count j)) :=
      node?_linkTargets _ _ _ _
    by_cases hj : j = g.size
    · subst hj
      rw [if_pos rfl, if_pos rfl, hlinked, hwired, List.count_eq_zero_of_not_mem hnew,
        Node.linked_zero, Option.map_id']
      rfl
    · rw [if_neg hj, if_neg hj, hlinked]
      have hold : wired.node? j = g.node? j := by
        simp only [wired, wireInputs]
        rw [node?_modify hplaced, if_neg hj, node?_insert, if_neg hj]
      rw [hold]

/-- What the nodes are after a new operation. -/
lemma kind?_operation {inputs : InputSet} {outputs : Outputs} (hkind : kind.isOperation = true)
    (hnew : g.size ∉ outputs.targets) (j : NodeId) :
    (Builder.operation kind inputs outputs g).2.kind? j =
      if j = g.size then some kind else g.kind? j := by
  rw [kind?, (operation_effect hkind hnew).2.2]
  split
  · exact congrArg some (Node.kind_withInputs _ inputs)
  · rw [Option.map_map]
    rfl

/-- Operands are no operations. -/
lemma isOperation_of_operand? (h : (g.operand? id).isSome) {n : Node} (hn : g.node? id = some n) :
    n.kind.isOperation = false := by
  by_contra hoperation
  rw [operand?, hn, Option.bind_some,
    NodeKind.operand?_of_isOperation (Bool.eq_true_of_not_eq_false hoperation)] at h
  cases h

/-! ## Growth -/

/-- Every node of the one graph is the same in the other one. -/
def Grows (g g' : Graph) : Prop := ∀ id kind, g.kind? id = some kind → g'.kind? id = some kind

/-- Nothing changed. -/
lemma Grows.refl (g : Graph) : Grows g g := fun _ _ h => h

/-- One change after another. -/
lemma Grows.trans (h : Grows g g') (h' : Grows g' g'') : Grows g g'' :=
  fun id kind hkind => h' id kind (h id kind hkind)

/-- A graph grows by a node. -/
lemma Grows.of_kind? (h : ∀ j, g'.kind? j = if j = g.size then some kind else g.kind? j) :
    Grows g g' := by
  intro j kind' hkind
  have hj : j ≠ g.size := by
    rintro rfl
    rw [kind?_eq_none_iff.2 le_rfl] at hkind
    cases hkind
  rw [h, if_neg hj, hkind]

/-- A variable is the new node, or it was there before. -/
lemma declared?_eq_some_iff_of_kind?
    (h : ∀ j, g'.kind? j = if j = g.size then some kind else g.kind? j) {v : Variable} :
    g'.declared? id = some v ↔
      (id = g.size ∧ kind.declared? = some v) ∨ g.declared? id = some v := by
  rw [declared?_eq, h]
  by_cases hid : id = g.size
  · have hnone : g.declared? id ≠ some v := fun hv => (lt_size_of_declared? hv).ne hid
    rw [if_pos hid, Option.bind_some, or_iff_left hnone, and_iff_right hid]
  · rw [if_neg hid, ← declared?_eq, or_iff_right fun hnew => hid hnew.1]

/-- The variables stay the same if the new node is none. -/
lemma declared?_of_kind? (h : ∀ j, g'.kind? j = if j = g.size then some kind else g.kind? j)
    (hvariable : kind.declared? = none) (j : NodeId) : g'.declared? j = g.declared? j := by
  refine Option.ext fun v => ?_
  rw [declared?_eq_some_iff_of_kind? h, hvariable]
  exact or_iff_right fun hnew => Option.some_ne_none v hnew.2.symm

/-- A variable stays. -/
lemma Grows.declared? (h : Grows g g') {v : Variable} (hid : g.declared? id = some v) :
    g'.declared? id = some v := by
  obtain ⟨kind, hkind, hv⟩ := Option.bind_eq_some_iff.1 (declared?_eq g id ▸ hid)
  rw [declared?_eq, h id kind hkind, Option.bind_some, hv]

/-- The operand of a node stays. -/
lemma Grows.operand? (h : Grows g g') (hid : (g.operand? id).isSome) :
    g'.operand? id = g.operand? id := by
  rw [operand?_eq, operand?_eq] at *
  cases hkind : g.kind? id with
  | none => simp [hkind] at hid
  | some kind => rw [h id kind hkind]

/-- The node may be written: it is a local of `main` or a built-in output, or else a root. -/
def Writable (roots : List NodeId) (g : Graph) (id : NodeId) : Prop :=
  (g.operand? id).isSome ∧
    ∀ v, g.declared? id = some v → v.localDeclaration.isSome ∨ id ∈ roots

/-- What may be written stays so. -/
lemma Grows.writable (h : Grows g g') (hid : Writable roots g id) : Writable roots g' id := by
  obtain ⟨hoperand, hlocal⟩ := hid
  refine ⟨by rwa [h.operand? hoperand], fun v hv => hlocal v ?_⟩
  rw [operand?_eq] at hoperand
  cases hkind : g.kind? id with
  | none => simp [hkind] at hoperand
  | some kind => rwa [declared?_eq, hkind, ← h id kind hkind, ← declared?_eq]

end Graph

/-- The node reads variables only, it writes variables and built-in outputs only, and it is wired to
all that its kind needs. If its code reads one of its outputs, or does not assign a value to it as a
whole, then that variable has an initial value. -/
structure Node.WellWired (roots : List NodeId) (g : Graph) (n : Node) : Prop where
  inputs : ∀ e ∈ n.inputs, ∃ id, e.2 = .node id ∧ (g.declared? id).isSome
  exposed : ∀ code, n.kind = .inlineCode code → ∀ p ∈ n.outputs.pins, p.1 ∈ Snippet.exposed code →
    ∃ v, g.declared? p.2 = some v ∧ v.value.isSome
  outputs : ∀ id ∈ n.outputs.targets, g.Writable roots id
  assigned : ∀ id ∈ n.outputs.targets,
    n.Assigns id ∨ ∃ v, g.declared? id = some v ∧ v.value.isSome
  complete : n.Complete

/-- The comment of the node holds no directive, and an operation is well wired. -/
structure Node.Settled (roots : List NodeId) (g : Graph) (n : Node) : Prop where
  comment : ∀ text ∈ n.comment, IsPlain text
  wiring : n.kind.isOperation = true → n.WellWired roots g

namespace Graph

/-- Operations stay well wired. -/
lemma Grows.settled {n : Node} (h : Grows g g') (hn : n.Settled roots g) : n.Settled roots g' := by
  refine ⟨hn.comment, fun hop => ?_⟩
  obtain ⟨hinputs, hexposed, houtputs, hassigned, hcomplete⟩ := hn.wiring hop
  refine ⟨fun e he => ?_, fun code hcode p hp hread => ?_, fun id hid => h.writable (houtputs id hid),
    fun id hid => (hassigned id hid).imp_right ?_, hcomplete⟩
  · obtain ⟨id, hid, hdeclared⟩ := hinputs e he
    obtain ⟨v, hv⟩ := Option.isSome_iff_exists.1 hdeclared
    exact ⟨id, hid, by rw [h.declared? hv, Option.isSome_some]⟩
  · obtain ⟨v, hv, hvalue⟩ := hexposed code hcode p hp hread
    exact ⟨v, h.declared? hv, hvalue⟩
  · rintro ⟨v, hv, hvalue⟩
    exact ⟨v, h.declared? hv, hvalue⟩

end Graph

/-! ## Sound graphs -/

/-- The name of the variable stands for its class and type: it is a name of the vocabulary, a
sampler, or a temporary name with the number of names at some earlier time. No text of it holds a
directive. -/
structure Variable.Fits (size : Nat) (v : Variable) : Prop where
  named : HasType v.cls v.name v.type ∨ (v.cls = .sampler ∧ letters v.name = "Texture".toList) ∨
    (v.cls = .temporary ∧ ∃ k < size, v.name = "tmp_" ++ toString k)
  name : IsPlain v.name
  type : IsPlain v.type
  value : ∀ text ∈ v.value, IsPlain text

/-- A temporary name keeps its place when more names are registered. -/
lemma Variable.Fits.mono {v : Variable} {size size' : Nat} (h : v.Fits size) (hle : size ≤ size') :
    v.Fits size' := by
  refine ⟨?_, h.name, h.type, h.value⟩
  rcases h.named with hname | hname | ⟨hcls, k, hk, hname⟩
  · exact .inl hname
  · exact .inr (.inl hname)
  · exact .inr (.inr ⟨hcls, k, hk.trans_le hle, hname⟩)

/-- Nothing went wrong while the graph was built, and nothing can go wrong when it is compiled from
the roots. -/
structure Graph.Sound (roots : List NodeId) (g : Graph) : Prop where
  fault : g.fault = none
  diagnostics : g.diagnostics = []
  names_nodup : g.registry.names.Nodup
  registered : ∀ name id, g.find? name = some id ↔ ∃ v, g.declared? id = some v ∧ v.name = name
  fits : ∀ id v, g.declared? id = some v → v.Fits g.registry.size
  varyings : ∀ e ∈ g.varyings,
    ∃ v, g.declared? e.2 = some v ∧ v.cls = .varying ∧ v.name = e.1 ∧ Carried v.name v.type
  varyings_nodup : (g.varyings.map (·.1)).Nodup
  settled : ∀ id n, g.node? id = some n → n.Settled roots g

namespace Graph

/-- The graph without nodes is sound. -/
lemma sound_ofStage (roots : List NodeId) (stage : Stage) : Sound roots (ofStage stage) where
  fault := rfl
  diagnostics := rfl
  names_nodup := List.nodup_nil
  registered name id := by
    simp [ofStage, find?, Registry.find?, declared?, node?]
  fits id v h := by
    simp [ofStage, declared?, node?] at h
  varyings e he := by
    simp [ofStage] at he
  varyings_nodup := List.nodup_nil
  settled id n h := by
    simp [ofStage, node?] at h

/-- With more roots, more may be written. -/
lemma Writable.mono {roots' : List NodeId} (h : Writable roots g id) (hsub : roots ⊆ roots') :
    Writable roots' g id :=
  ⟨h.1, fun v hv => (h.2 v hv).imp_right fun hmem => hsub hmem⟩

namespace Sound

/-- A sound graph stays sound with more roots. -/
lemma mono {roots' : List NodeId} (h : Sound roots g) (hsub : roots ⊆ roots') :
    Sound roots' g := by
  refine ⟨h.fault, h.diagnostics, h.names_nodup, h.registered, h.fits, h.varyings,
    h.varyings_nodup, fun id n hn => ?_⟩
  have hsettled := h.settled id n hn
  refine ⟨hsettled.comment, fun hop => ?_⟩
  obtain ⟨hinputs, hexposed, houtputs, hassigned, hcomplete⟩ := hsettled.wiring hop
  exact ⟨hinputs, hexposed, fun target htarget => (houtputs target htarget).mono hsub, hassigned,
    hcomplete⟩

/-- A change of wiring keeps a graph sound if all nodes are settled afterwards. -/
lemma of_framed (h : Sound roots g) (hframed : Framed g g')
    (hdeclared : ∀ j, g'.declared? j = g.declared? j)
    (hsettled : ∀ j n, g'.node? j = some n → n.Settled roots g') : Sound roots g' where
  fault := hframed.fault.trans h.fault
  diagnostics := hframed.diagnostics.trans h.diagnostics
  names_nodup := by
    rw [hframed.registry]
    exact h.names_nodup
  registered name id := by
    rw [find?, hframed.registry, hdeclared]
    exact h.registered name id
  fits id v hv := by
    rw [hdeclared] at hv
    rw [hframed.registry]
    exact h.fits id v hv
  varyings e he := by
    rw [hframed.varyings] at he
    rw [hdeclared]
    exact h.varyings e he
  varyings_nodup := by
    rw [hframed.varyings]
    exact h.varyings_nodup
  settled := hsettled

/-- A note keeps a graph sound. -/
lemma noteIf (h : Sound roots g) (condition : Bool) (n : Notice) :
    Sound roots (g.noteIf condition n) := by
  have hnode := node?_noteIf g condition n
  refine h.of_framed (noteIf_framed g condition n) (fun j => ?_) fun j m hm => ?_
  · rw [declared?, declared?, hnode]
  · rw [hnode] at hm
    have hgrows : Grows g (g.noteIf condition n) := fun id kind hkind => by
      rwa [kind?, hnode]
    exact hgrows.settled (h.settled j m hm)

/-- A node that is neither variable nor operation keeps a graph sound. -/
lemma insert (h : Sound roots g) (hoperation : kind.isOperation = false)
    (hvariable : kind.declared? = none) : Sound roots (g.insert kind).2 := by
  have hkind : ∀ j, (g.insert kind).2.kind? j = _ := kind?_of_node? (node?_insert g kind)
  refine h.of_framed (insert_framed g kind) (declared?_of_kind? hkind hvariable) fun j n hn => ?_
  rw [node?_insert] at hn
  split at hn
  · cases hn
    exact ⟨by simp, fun hop => by simp [hoperation] at hop⟩
  · exact (Grows.of_kind? hkind).settled (h.settled j n hn)

/-- A comment keeps a graph sound. -/
lemma setComment (h : Sound roots g) (hid : id < g.size) {text : String} (htext : IsPlain text) :
    Sound roots (g.setComment id text) ∧ ∀ j, (g.setComment id text).kind? j = g.kind? j := by
  have hnode : ∀ j, (g.setComment id text).node? j = _ := node?_modify hid _
  have hkind : ∀ j, (g.setComment id text).kind? j = g.kind? j := by
    intro j
    rw [kind?, hnode, kind?]
    split
    · rw [Option.map_map]
      rfl
    · rfl
  refine ⟨h.of_framed (modify_framed hid _) (fun j => ?_) fun j m hm => ?_, hkind⟩
  · rw [declared?_eq, declared?_eq, hkind]
  · have hgrows : Grows g (g.setComment id text) := fun j kind hj => (hkind j).trans hj
    rw [hnode] at hm
    split at hm
    · obtain ⟨n, hn, rfl⟩ := Option.map_eq_some_iff.1 hm
      have hslashes : IsPlain ("//" ++ text) := isPlain_append.2 ⟨by decide, htext⟩
      have hsettled := hgrows.settled (h.settled j n hn)
      refine ⟨by simpa using hslashes, fun hop => ?_⟩
      obtain ⟨hinputs, hexposed, houtputs, hassigned, hcomplete⟩ := hsettled.wiring hop
      exact ⟨hinputs, hexposed, houtputs, hassigned, hcomplete⟩
    · exact hgrows.settled (h.settled j m hm)

/-- An operation keeps a graph sound if it is well wired. Its targets have it as a further input,
but they are no operations themselves. -/
lemma operation (h : Sound roots g) {inputs : InputSet} {outputs : Outputs}
    (hkind : kind.isOperation = true)
    (hwired : Node.WellWired roots g
      { ({ id := g.size, kind : Node }.withInputs inputs) with outputs }) :
    Sound roots (Builder.operation kind inputs outputs g).2 ∧
      ∀ j, (Builder.operation kind inputs outputs g).2.kind? j =
        if j = g.size then some kind else g.kind? j := by
  have hnew : g.size ∉ outputs.targets := fun hmem =>
    absurd (lt_size_of_operand? (hwired.outputs g.size hmem).1) (lt_irrefl _)
  set g' := (Builder.operation kind inputs outputs g).2
  obtain ⟨-, hframed, hnode⟩ : _ ∧ Framed g g' ∧ _ := operation_effect hkind hnew
  have hkind' : ∀ j, g'.kind? j = if j = g.size then some kind else g.kind? j :=
    kind?_operation hkind hnew
  have hgrows : Grows g g' := .of_kind? hkind'
  refine ⟨h.of_framed hframed
    (declared?_of_kind? hkind' (NodeKind.declared?_of_isOperation hkind)) fun j m hm => ?_, hkind'⟩
  rw [hnode] at hm
  split at hm
  · cases hm
    have hcomment : ({ id := g.size, kind : Node }.withInputs inputs).comment = none := by
      cases inputs <;> rfl
    exact hgrows.settled ⟨by simp [hcomment], fun _ => hwired⟩
  · obtain ⟨n, hn, rfl⟩ := Option.map_eq_some_iff.1 hm
    have hsettled := hgrows.settled (h.settled j n hn)
    refine ⟨hsettled.comment, fun hop => ?_⟩
    replace hop : n.kind.isOperation = true := hop
    have htarget : j ∉ outputs.targets := by
      intro hmem
      rw [isOperation_of_operand? (hwired.outputs j hmem).1 hn] at hop
      cases hop
    rw [List.count_eq_zero_of_not_mem htarget, Node.linked_zero]
    exact hsettled.wiring hop

/-- After a variable is added under a free name, names stand for the variables of that name. -/
lemma find?_insertVariable_eq_some_iff (h : Sound roots g) {v : Variable}
    (hfree : g.find? v.name = none) {name : String} :
    (g.insertVariable v).2.find? name = some id ↔
      ∃ w, (g.insertVariable v).2.declared? id = some w ∧ w.name = name := by
  have hvariables : ∀ w, (g.insertVariable v).2.declared? id = some w ↔
      (id = g.size ∧ w = v) ∨ g.declared? id = some w := fun w =>
    (declared?_eq_some_iff_of_kind? (kind?_of_node? (node?_insert g (.var v)))).trans
      (or_congr_left (and_congr_right fun _ => Option.some_inj.trans eq_comm))
  rw [g.find?_insertVariable v]
  split
  next heq =>
    constructor
    · rintro ⟨⟩
      exact ⟨v, (hvariables v).2 (.inl ⟨rfl, rfl⟩), heq.symm⟩
    · rintro ⟨w, hw, rfl⟩
      rcases (hvariables w).1 hw with ⟨rfl, -⟩ | hold
      · rfl
      · have hregistered := (h.registered w.name id).2 ⟨w, hold, rfl⟩
        rw [heq, hfree] at hregistered
        cases hregistered
  next hne =>
    rw [h.registered]
    refine exists_congr fun w => and_congr_left fun hname => ?_
    rw [hvariables, or_iff_right]
    rintro ⟨-, rfl⟩
    exact hne hname.symm

/-- A variable under a free name keeps a graph sound. -/
lemma insertVariable (h : Sound roots g) {v : Variable} (hfree : g.find? v.name = none)
    (hfits : v.Fits (g.registry.size + 1)) :
    Sound roots (g.insertVariable v).2 ∧
      ∀ j, (g.insertVariable v).2.kind? j = if j = g.size then some (.var v) else g.kind? j := by
  set g' := (g.insertVariable v).2
  have hnode : ∀ j, g'.node? j = _ := node?_insert g (.var v)
  have hkind : ∀ j, g'.kind? j = _ := kind?_of_node? hnode
  have hgrows : Grows g g' := .of_kind? hkind
  have hregistry : g'.registry = g.registry.register v.name g.size := rfl
  refine ⟨⟨h.fault, h.diagnostics, Registry.names_register_nodup h.names_nodup _ _,
    fun name id => h.find?_insertVariable_eq_some_iff hfree, fun id w hw => ?_, fun e he => ?_,
    h.varyings_nodup, fun id n hn => ?_⟩, hkind⟩
  · rw [hregistry, Registry.size_register hfree]
    rcases (declared?_eq_some_iff_of_kind? hkind).1 hw with ⟨-, hnew⟩ | hold
    · cases hnew
      exact hfits
    · exact (h.fits id w hold).mono (Nat.le_succ _)
  · obtain ⟨w, hw, hrest⟩ := h.varyings e he
    exact ⟨w, hgrows.declared? hw, hrest⟩
  · rw [hnode] at hn
    split at hn
    · cases hn
      exact ⟨by simp, fun hop => by simp [NodeKind.isOperation] at hop⟩
    · exact hgrows.settled (h.settled id n hn)

/-- A varying under a free name keeps a graph sound. -/
lemma insertVarying (h : Sound roots g) {name type : String} (hfree : g.find? name = none)
    (hcarried : Carried name type) :
    let v : Variable := { cls := .varying, type, name }
    let g' := (g.insertVariable v).2.addVarying name g.size
    Sound roots g' ∧ ∀ j, g'.kind? j = if j = g.size then some (.var v) else g.kind? j := by
  intro v g'
  have hfits : v.Fits (g.registry.size + 1) :=
    ⟨.inl hcarried.hasType, hcarried.hasType.isPlain_name, hcarried.hasType.isPlain_type, by simp [v]⟩
  obtain ⟨hsound, hkind⟩ := h.insertVariable (v := v) hfree hfits
  have hsame : Grows (g.insertVariable v).2 g' := fun _ _ hkind => hkind
  refine ⟨⟨hsound.fault, hsound.diagnostics, hsound.names_nodup, hsound.registered, hsound.fits,
    fun e he => ?_, ?_, fun id n hn => hsame.settled (hsound.settled id n hn)⟩, hkind⟩
  · rcases List.mem_append.1 he with he | he
    · exact hsound.varyings e he
    · obtain rfl := List.mem_singleton.1 he
      refine ⟨v, ?_, rfl, rfl, hcarried⟩
      have hnew := hkind g.size
      rw [if_pos rfl] at hnew
      exact (declared?_eq g' g.size).trans (by rw [show g'.kind? g.size = _ from hnew]; rfl)
  · have hvaryings : g'.varyings.map (·.1) = g.varyings.map (·.1) ++ [name] := List.map_append
    rw [hvaryings, List.nodup_append]
    refine ⟨h.varyings_nodup, List.nodup_singleton _, fun a ha b hb => ?_⟩
    obtain rfl := List.mem_singleton.1 hb
    rintro rfl
    -- a name of a varying is registered
    obtain ⟨e, he, heq⟩ := List.mem_map.1 ha
    obtain ⟨w, hw, -, hname, -⟩ := h.varyings e he
    have hregistered := (h.registered a e.2).2 ⟨w, hw, hname.trans heq⟩
    rw [hfree] at hregistered
    cases hregistered

end Sound

end Graph

end SceneShading
