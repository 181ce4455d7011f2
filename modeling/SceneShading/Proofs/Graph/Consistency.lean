import Mathlib.Tactic
import SceneShading.Proofs.Graph.Requests

/-!
# The books of a graph agree

What is known about a graph is written down in several places: each node has its number, the registry has
the nodes of names and the order in which names were registered first, and the list of varyings has names
and nodes once more. Whatever is asked of a graph, these books agree (`Graph.Consistent`).

A registry holds the nodes of names and their order in one list. It acts like two books that are kept
apart, where a name goes to the end of the order whenever the other book did not have it
(`Registry.ledger_register`), and such books agree after each entry (`Ledger.Agrees.enter`).

A graph stays consistent by each change that a request can make (`Graph.Consistent.changes`). The delicate
one is a varying: it is a varying under its name forever, but another variable may take its name over in
the registry. No second varying gets the name, since names stay registered and a varying joins the
varyings only under a name that is free.
-/

namespace SceneShading

/-! ## Two books of names -/

/-- The nodes of names, and the names in the order in which they were entered first. -/
structure Ledger where
  node? : String → Option NodeId
  order : List String

namespace Ledger

/-- A name is entered for a node, in place of an older one. A name that had no node is the last one in the
order then. -/
def enter (l : Ledger) (name : String) (id : NodeId) : Ledger where
  node? := Function.update l.node? name (some id)
  order := if (l.node? name).isSome then l.order else l.order ++ [name]

/-- The order lists each name that has a node exactly once, and nothing else. -/
structure Agrees (l : Ledger) : Prop where
  nodup : l.order.Nodup
  mem_order : ∀ name, name ∈ l.order ↔ (l.node? name).isSome

/-- The books agree after an entry. -/
lemma Agrees.enter {l : Ledger} (h : l.Agrees) (name : String) (id : NodeId) :
    (l.enter name id).Agrees := by
  by_cases hold : (l.node? name).isSome
  · refine ⟨by rw [Ledger.enter, if_pos hold]; exact h.nodup, fun other => ?_⟩
    simp only [Ledger.enter, if_pos hold, h.mem_order]
    by_cases heq : other = name
    · simp [heq, hold]
    · simp [heq]
  · have hnew : name ∉ l.order := fun hmem => hold ((h.mem_order name).1 hmem)
    refine ⟨?_, fun other => ?_⟩
    · simp only [Ledger.enter, if_neg hold, ← List.concat_eq_append]
      exact h.nodup.concat hnew
    · simp only [Ledger.enter, if_neg hold, List.mem_append, List.mem_singleton, h.mem_order]
      by_cases heq : other = name
      · simp [heq]
      · simp [heq]

end Ledger

namespace Registry

/-- A registry as two books. -/
def ledger (r : Registry) : Ledger := ⟨r.find?, r.names⟩

/-- A registry acts like two books. -/
lemma ledger_register (r : Registry) (name : String) (id : NodeId) :
    (r.register name id).ledger = r.ledger.enter name id := by
  have hnode : (r.register name id).find? = Function.update r.find? name (some id) :=
    funext fun other => by rw [find?_register, Function.update_apply]
  rw [ledger, hnode, names_register, contains_eq_isSome]
  rfl

end Registry

namespace Graph

variable {g g' : Graph} {P : Variable → Prop}

/-- The number of each node is its place. Each registered name is listed once, and its node is a variable
of that name. The varyings have different names, which are registered, and each is a varying of its
name. -/
structure Consistent (g : Graph) : Prop where
  numbered : ∀ id n, g.node? id = some n → n.id = id
  ledger : g.registry.ledger.Agrees
  registered : ∀ name id, g.find? name = some id → ∃ v, g.declared? id = some v ∧ v.name = name
  varyings_nodup : (g.varyings.map (·.1)).Nodup
  varyings_registered : ∀ e ∈ g.varyings, (g.find? e.1).isSome
  varyings : ∀ e ∈ g.varyings, ∃ v, g.declared? e.2 = some v ∧ v.cls = .varying ∧ v.name = e.1

/-- There is nothing to write down about a graph without nodes. -/
lemma consistent_ofStage (stage : Stage) : (ofStage stage).Consistent where
  numbered id n hn := by simp [ofStage, node?] at hn
  ledger := ⟨List.nodup_nil, fun name => by simp [ofStage, Registry.ledger, Registry.names,
    Registry.find?]⟩
  registered name id hfind := by simp [ofStage, find?, Registry.find?] at hfind
  varyings_nodup := List.nodup_nil
  varyings_registered := List.forall_mem_nil _
  varyings := List.forall_mem_nil _

namespace Consistent

/-- Altered nodes stay what the books say. -/
lemma alters (h : g.Consistent) (ha : Alters g g') : g'.Consistent where
  numbered id n hn := by
    obtain ⟨m, hm, hid⟩ := ha.exists_node? hn
    exact hid ▸ h.numbered id m hm
  ledger := ha.registry ▸ h.ledger
  registered name id hfind := by
    rw [find?, ha.registry] at hfind
    obtain ⟨v, hv, hname⟩ := h.registered name id hfind
    obtain ⟨w, hw, -, hsame⟩ := ha.exists_declared? hv
    exact ⟨w, hw, hsame.trans hname⟩
  varyings_nodup := ha.varyings ▸ h.varyings_nodup
  varyings_registered e he := by
    rw [find?, ha.registry]
    exact h.varyings_registered e (ha.varyings ▸ he)
  varyings e he := by
    obtain ⟨v, hv, hcls, hname⟩ := h.varyings e (ha.varyings ▸ he)
    obtain ⟨w, hw, hclass, hsame⟩ := ha.exists_declared? hv
    exact ⟨w, hw, hclass.trans hcls, hsame.trans hname⟩

/-- A node that is not registered is in no book but the list of nodes. -/
lemma insert (h : g.Consistent) (kind : NodeKind) : (g.insert kind).2.Consistent where
  numbered id n hn := by
    rw [node?_insert] at hn
    split at hn
    next heq =>
      cases hn
      exact heq.symm
    next => exact h.numbered id n hn
  ledger := h.ledger
  registered name id hfind := by
    obtain ⟨v, hv, hname⟩ := h.registered name id hfind
    exact ⟨v, (builds_insert g kind).grows.declared? hv, hname⟩
  varyings_nodup := h.varyings_nodup
  varyings_registered := h.varyings_registered
  varyings e he := by
    obtain ⟨v, hv, hrest⟩ := h.varyings e he
    exact ⟨v, (builds_insert g kind).grows.declared? hv, hrest⟩

/-- A variable takes the place of an older one of its name in the registry, and nowhere else. -/
lemma insertVariable (h : g.Consistent) (v : Variable) : (g.insertVariable v).2.Consistent where
  numbered := (h.insert (.var v)).numbered
  ledger := by
    have hledger := h.ledger.enter v.name g.size
    rwa [← Registry.ledger_register] at hledger
  registered name id hfind := by
    rw [find?_insertVariable] at hfind
    split at hfind
    next heq =>
      cases hfind
      exact ⟨v, declared?_insertVariable g v, heq.symm⟩
    next => exact (h.insert (.var v)).registered name id hfind
  varyings_nodup := h.varyings_nodup
  varyings_registered e he := by
    rw [find?_insertVariable]
    split
    · rfl
    · exact h.varyings_registered e he
  varyings := (h.insert (.var v)).varyings

/-- A varying joins the varyings, if its name was free. -/
lemma insertVarying (h : g.Consistent) {v : Variable} (hfree : g.find? v.name = none)
    (hcls : v.cls = .varying) :
    ((g.insertVariable v).2.addVarying v.name (g.insertVariable v).1).Consistent := by
  have hmade := h.insertVariable v
  have hnew : v.name ∉ g.varyings.map (·.1) := by
    intro hmem
    obtain ⟨e, he, hname⟩ := List.mem_map.1 hmem
    have hregistered := h.varyings_registered e he
    rw [hname, hfree] at hregistered
    cases hregistered
  refine ⟨hmade.numbered, hmade.ledger, hmade.registered, ?_, fun e he => ?_, fun e he => ?_⟩
  · have hnames : (g.varyings ++ [(v.name, g.size)]).map (·.1) = g.varyings.map (·.1) ++ [v.name] :=
      List.map_append
    change ((g.varyings ++ [(v.name, g.size)]).map (·.1)).Nodup
    rw [hnames, ← List.concat_eq_append]
    exact h.varyings_nodup.concat hnew
  · rcases List.mem_append.1 he with he | he
    · exact hmade.varyings_registered e he
    · rw [List.mem_singleton.1 he]
      exact Option.isSome_iff_exists.2 ⟨_, (find?_insertVariable g v v.name).trans (if_pos rfl)⟩
  · rcases List.mem_append.1 he with he | he
    · exact hmade.varyings e he
    · rw [List.mem_singleton.1 he]
      exact ⟨v, declared?_insertVariable g v, hcls, rfl⟩

/-- **One request keeps the books in agreement.** -/
theorem changes (h : g.Consistent) (hc : Changes P g g') : g'.Consistent := by
  cases hc with
  | altered ha => exact h.alters ha
  | inserted ha kind => exact (h.alters ha).insert kind
  | registered ha => exact (h.alters ha).insertVariable _
  | joined ha _ hfree hcls =>
    refine (h.alters ha).insertVarying ?_ hcls
    rw [find?, ha.registry]
    exact hfree

/-- The vertex graph that owes a fragment graph its varyings is given them one by one. Their names are
different, so that each of them is free when its turn comes. -/
lemma vertexFor {fragment : Graph} (h : fragment.Consistent) : fragment.vertexFor.Consistent := by
  have hnodup := h.varyings_nodup
  have hstart := consistent_ofStage .vertex
  have hfree : ∀ e ∈ fragment.varyings, (ofStage .vertex).find? e.1 = none := fun _ _ => rfl
  unfold Graph.vertexFor
  generalize fragment.varyings = es at hnodup hfree
  generalize ofStage .vertex = g at hstart hfree
  induction es generalizing g with
  | nil => exact hstart
  | cons e es ih =>
    rw [List.map_cons, List.nodup_cons] at hnodup
    obtain ⟨he, hes⟩ := List.forall_mem_cons.1 hfree
    refine ih hnodup.2 _ (hstart.insertVarying he rfl) fun e' he' => ?_
    have hne : e'.1 ≠ e.1 := fun heq => hnodup.1 (heq ▸ List.mem_map_of_mem he')
    exact (find?_insertVariable g _ e'.1).trans ((if_neg hne).trans (hes e' he'))

end Consistent

/-! ## All graphs that can be built -/

/-- The graph was built from one without nodes, or from the varyings of another graph that was built, by
requests one after another. Problems may be reported to it, and it may be opened for varyings that no
fragment graph declares. -/
inductive Reachable : Graph → Prop where
  | ofStage (stage : Stage) : Reachable (ofStage stage)
  | vertexFor {fragment : Graph} (h : Reachable fragment) : Reachable fragment.vertexFor
  | after {g : Graph} (h : Reachable g) (q : Request) : Reachable (q.after g)
  | report {g : Graph} (h : Reachable g) (d : Diagnostic) : Reachable (g.report d)
  | opened {g : Graph} (h : Reachable g) (customFragment : Bool) :
    Reachable { g with customFragment }

/-- Several requests, one after another. -/
lemma Reachable.afterAll {start : Graph} (h : start.Reachable) (requests : List Request) :
    (start.afterAll requests).Reachable := by
  induction requests generalizing start with
  | nil => exact h
  | cons q requests ih => exact ih (h.after q)

/-- **The books of every graph that can be built agree.** -/
theorem Reachable.consistent (h : g.Reachable) : g.Consistent := by
  induction h with
  | ofStage stage => exact consistent_ofStage stage
  | vertexFor _ ih => exact ih.vertexFor
  | after _ q ih => exact ih.changes (q.changes_after _)
  | report _ d ih => exact ih.alters (quiet_report _ d).alters
  | opened _ customFragment ih => exact ih.alters ⟨fun _ => rfl, rfl, rfl⟩

end Graph

end SceneShading
