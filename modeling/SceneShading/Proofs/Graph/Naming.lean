import Mathlib.Tactic
import SceneShading.Proofs.Graph.Requests

/-!
# Names of locals

The locals of a graph are registered in one registry with all other variables. A local that is asked for
under a wanted name gets that name, or the name with the least number that makes it free: the search
for the number ends, because a registry holds only as many names as it has entries
(`Registry.exists_freeName`). So such a local has a new name, whatever was asked of the graph before.

A local without a wanted name is called by the size of the registry, and nothing tests whether that name
is free. A registry grows with every new name, so locals of this kind keep out of each other's way
(`Graph.chosen_or_numbered`). But a name of this form may have been chosen by a caller: then the local
takes the name over (`Graph.makeLocal_taken`). This is the only way to a local whose name is not new
(`Graph.makeLocal_isNew`).

What requests do to a registry is said once: they leave it alone or register one name, which is one
that was asked for, or the next temporary name (`Graph.Request.registry_after`).
-/

namespace SceneShading

/-! ## Registries -/

namespace Registry

variable {r : Registry} {name other : String}

/-- The search for a free name ends after at most one number more than there are names, with the least
number that makes the name free. -/
lemma exists_freeName (r : Registry) (name : String) : ∃ n : Nat, 0 < n ∧ n ≤ r.size + 1 ∧
    r.freeName name = name ++ toString n ∧
      ∀ m : Nat, 0 < m → m < n → r.contains (name ++ toString m) = true := by
  have hfree := r.contains_freeName name
  rw [freeName, List.find?_map] at hfree ⊢
  cases hfind : (List.range (r.size + 1)).find?
      ((fun n => !r.contains (name ++ toString n)) ∘ (· + 1)) with
  | some n =>
    obtain ⟨-, hmem, hless⟩ := List.find?_range_eq_some.1 hfind
    refine ⟨n + 1, Nat.succ_pos n, List.mem_range.1 hmem, by rw [Option.map_some]; rfl, ?_⟩
    intro m hm hlt
    have htaken := hless (m - 1) (by omega)
    rw [Function.comp_apply, Nat.sub_add_cancel hm] at htaken
    simpa using htaken
  | none =>
    -- the last number would be taken, and also free
    have htaken := List.find?_eq_none.1 hfind r.size (List.mem_range.2 r.size.lt_succ_self)
    rw [hfind, Option.map_none, Option.getD_none] at hfree
    rw [Function.comp_apply, hfree] at htaken
    exact absurd rfl htaken

/-- The names after one is registered. -/
lemma contains_register (id : NodeId) :
    (r.register name id).contains other = true ↔ other = name ∨ r.contains other = true := by
  rw [← mem_names_iff, ← mem_names_iff, names_register]
  split
  next h =>
    refine (or_iff_right_of_imp ?_).symm
    rintro rfl
    exact mem_names_iff.2 h
  next => rw [List.mem_append, List.mem_singleton, or_comm]

/-- The size after a name is registered. -/
lemma size_register_eq (id : NodeId) :
    (r.register name id).size = if r.contains name = true then r.size else r.size + 1 := by
  unfold register
  split
  · exact List.length_map _
  · exact List.length_append

end Registry

/-! ## What requests do to a registry -/

namespace Graph

variable {g start : Graph} {name : String} {id : NodeId}

/-- The name of the local that the request makes. -/
def Request.localName? (g : Graph) : Request → Option String
  | newLocal _ wanted _ => some (g.registry.localName wanted)
  | _ => none

/-- A local is registered under its name. -/
lemma registry_makeLocal (g : Graph) (type : String) (wanted value : Option String) :
    (g.makeLocal type wanted value).2.registry =
      g.registry.register (g.registry.localName wanted) g.size := by
  rw [makeLocal_eq]
  rfl

/-- A request leaves the registry alone, or registers one name: one that was asked for, or the next
temporary name. -/
lemma Request.registry_after (g : Graph) (q : Request) :
    (q.after g).registry = g.registry ∨
      ∃ name id, (q.Asks name ∨ name = "tmp_" ++ toString g.registry.size) ∧
        (q.after g).registry = g.registry.register name id := by
  have hchanges := q.changes_after g
  generalize q.after g = g' at hchanges ⊢
  cases hchanges with
  | altered halters => exact .inl halters.registry
  | inserted halters => exact .inl halters.registry
  | registered halters hname | joined halters hname =>
    exact .inr ⟨_, _, hname, congrArg (Registry.register · _ _) halters.registry⟩

/-! ## Runs -/

/-- The names of the locals that requests make, one after another. -/
def localNames (g : Graph) : List Request → List String
  | [] => []
  | q :: requests => (q.localName? g).toList ++ localNames (q.after g) requests

/-- The name is one of the graph at the start, or may have been given by a caller. -/
def Chosen (start : Graph) (requests : List Request) (name : String) : Prop :=
  start.registry.contains name = true ∨ ∃ q ∈ requests, q.Asks name

/-- Registered names stay registered. -/
lemma contains_after (h : g.registry.contains name = true) (q : Request) :
    (q.after g).registry.contains name = true := by
  rcases q.registry_after g with hsame | ⟨other, id, -, hregister⟩
  · rwa [hsame]
  · rw [hregister, Registry.contains_register]
    exact .inr h

/-- Whatever is registered was chosen, or is a temporary name with a number below the size of the
registry. -/
lemma chosen_or_numbered (start : Graph) (requests : List Request) (name : String)
    (h : (start.afterAll requests).registry.contains name = true) :
    Chosen start requests name ∨
      ∃ k < (start.afterAll requests).registry.size, name = "tmp_" ++ toString k := by
  induction requests using List.reverseRecOn generalizing name with
  | nil => exact .inl (.inl h)
  | append_singleton requests q ih =>
    rw [afterAll, List.foldl_concat] at h ⊢
    change (q.after (start.afterAll requests)).registry.contains name = true at h
    change _ ∨ ∃ k < (q.after (start.afterAll requests)).registry.size, _
    have hmono : ∀ {name}, Chosen start requests name → Chosen start (requests ++ [q]) name :=
      fun hchosen => hchosen.imp_right fun ⟨p, hp, hasks⟩ =>
        ⟨p, List.mem_append_left _ hp, hasks⟩
    generalize start.afterAll requests = g at h ih
    rcases q.registry_after g with hsame | ⟨other, id, hother, hregister⟩
    · rw [hsame] at h ⊢
      exact (ih name h).imp_left hmono
    · have hle : g.registry.size ≤ (q.after g).registry.size := by
        rw [hregister, Registry.size_register_eq]
        split <;> omega
      have hold : g.registry.contains name = true → Chosen start (requests ++ [q]) name ∨
          ∃ k < (q.after g).registry.size, name = "tmp_" ++ toString k := fun hcontains =>
        (ih name hcontains).imp hmono fun ⟨k, hk, heq⟩ => ⟨k, hk.trans_le hle, heq⟩
      rw [hregister, Registry.contains_register] at h
      rcases h with rfl | h
      · rcases hother with hasks | hnext
        · exact .inl (.inr ⟨q, List.mem_append_right _ List.mem_cons_self, hasks⟩)
        · by_cases htaken : g.registry.contains name = true
          · exact hold htaken
          · refine .inr ⟨g.registry.size, ?_, hnext⟩
            rw [hregister, Registry.size_register_eq, if_neg htaken]
            exact Nat.lt_succ_self _
      · exact hold h

/-- The next temporary name is free, unless it was chosen. -/
lemma chosen_of_contains_next (start : Graph) (requests : List Request)
    (h : (start.afterAll requests).registry.contains
      ("tmp_" ++ toString (start.afterAll requests).registry.size) = true) :
    Chosen start requests ("tmp_" ++ toString (start.afterAll requests).registry.size) := by
  refine (chosen_or_numbered start requests _ h).resolve_right ?_
  rintro ⟨k, hk, heq⟩
  exact hk.ne (append_toString_injective "tmp_" heq).symm

/-- If every local has a new name when it is made, then no two locals share a name. -/
lemma nodup_localNames_of_new {requests : List Request}
    (h : ∀ earlier q later name, requests = earlier ++ q :: later →
      q.localName? (g.afterAll earlier) = some name →
        (g.afterAll earlier).registry.contains name = false) :
    (g.localNames requests).Nodup ∧ ∀ name ∈ g.localNames requests, g.registry.contains name = false := by
  induction requests generalizing g with
  | nil => exact ⟨List.nodup_nil, List.forall_mem_nil _⟩
  | cons q requests ih =>
    obtain ⟨hnodup, hnew⟩ := ih (g := q.after g) fun earlier p later name heq =>
      h (q :: earlier) p later name (by rw [heq, List.cons_append])
    have hkept : ∀ name ∈ (q.after g).localNames requests, g.registry.contains name = false := by
      intro name hname
      refine Bool.eq_false_iff.2 fun hcontains => ?_
      exact Bool.eq_false_iff.1 (hnew name hname) (contains_after hcontains q)
    rw [localNames]
    cases hlocal : q.localName? g with
    | none => exact ⟨hnodup, hkept⟩
    | some name =>
      refine ⟨List.nodup_cons.2 ⟨fun hname => ?_, hnodup⟩, List.forall_mem_cons.2 ⟨?_, hkept⟩⟩
      · have hregistered : (q.after g).registry.contains name = true := by
          cases q with
          | newLocal type wanted value =>
            rw [← Option.some.inj hlocal, Request.after, registry_makeLocal, Registry.contains_register]
            exact .inl rfl
          | _ => cases hlocal
        exact Bool.eq_false_iff.1 (hnew name hname) hregistered
      · exact h [] q requests name rfl hlocal

/-- The answer to a request for a local is a new node: a local variable of the type and value, which is
registered under its name. -/
structure IsLocal (g : Graph) (type name : String) (value : Option String)
    (answer : NodeId × Graph) : Prop where
  isNew : g.node? answer.1 = none
  declared : answer.2.declared? answer.1 = some { cls := .temporary, type, name, value }
  registered : answer.2.find? name = some answer.1

lemma isLocal_makeLocal (g : Graph) (type : String) (wanted value : Option String) :
    g.IsLocal type (g.registry.localName wanted) value (g.makeLocal type wanted value) := by
  rw [makeLocal_eq]
  refine ⟨kind?_eq_none_iff.2 le_rfl |> Option.map_eq_none_iff.1, g.declared?_insertVariable _, ?_⟩
  exact (g.find?_insertVariable _ _).trans (if_pos rfl)

/-- **A local has a new name, unless a temporary name was chosen for another variable.** A wanted name
that is free is the name of the local; one that is taken gets the least number that makes it free,
which is found after at most one number more than there are names. A local without a wanted name is
named by the number of names. If this name is taken, then it was a name at the start, or was chosen by
a caller. So if no temporary name is ever chosen, then all locals have different names. -/
theorem makeLocal_isNew (start : Graph) (requests : List Request) (type : String)
    (value : Option String) :
    let g := start.afterAll requests
    (∀ wanted, ∃ name, g.IsLocal type name value (g.makeLocal type (some wanted) value) ∧
      g.registry.contains name = false ∧
        (g.registry.contains wanted = false → name = wanted) ∧
        (g.registry.contains wanted = true → ∃ n : Nat, 0 < n ∧ n ≤ g.registry.size + 1 ∧
          name = wanted ++ toString n ∧
            ∀ m : Nat, 0 < m → m < n → g.registry.contains (wanted ++ toString m) = true)) ∧
      (∃ name, g.IsLocal type name value (g.makeLocal type none value) ∧
        name = "tmp_" ++ toString g.registry.size ∧
          (g.registry.contains name = true → Chosen start requests name)) ∧
      ((∀ k : Nat, ¬Chosen start requests ("tmp_" ++ toString k)) →
        (start.localNames requests).Nodup) := by
  intro g
  refine ⟨fun wanted => ⟨_, g.isLocal_makeLocal type (some wanted) value,
    (g.registry.localName_some wanted).1, fun hfree => ?_, fun htaken => ?_⟩,
    ⟨_, g.isLocal_makeLocal type none value, rfl, chosen_of_contains_next start requests⟩, fun hnone => ?_⟩
  · rw [Registry.localName, if_neg (Bool.eq_false_iff.1 hfree)]
  · rw [Registry.localName, if_pos htaken]
    exact g.registry.exists_freeName wanted
  · refine (nodup_localNames_of_new fun earlier q later name heq hlocal => ?_).1
    cases q with
    | newLocal type wanted value =>
      rw [← Option.some.inj hlocal]
      cases wanted with
      | some wanted => exact ((start.afterAll earlier).registry.localName_some wanted).1
      | none =>
        refine Bool.eq_false_iff.2 fun hcontains => hnone (start.afterAll earlier).registry.size ?_
        refine (chosen_of_contains_next start earlier hcontains).imp_right ?_
        rintro ⟨p, hp, hasks⟩
        exact ⟨p, heq ▸ List.mem_append_left _ hp, hasks⟩
    | _ => cases hlocal

/-- Two unnamed locals and two of the same wanted name around a uniform: none of the names can be taken
for a temporary one, so the four locals have four names. -/
theorem makeLocal_isNew_aroundUniform :
    let requests : List Request := [.newLocal "vec3" none none, .uniform "vec4" "uColor" none,
      .newLocal "float" (some "normal") none, .newLocal "float" (some "normal") (some "1.0"),
      .newLocal "vec3" none none]
    (∀ k : Nat, ¬Chosen (ofStage .fragment) requests ("tmp_" ++ toString k)) ∧
      ((ofStage .fragment).localNames requests).Nodup := by
  intro requests
  have hnone : ∀ k : Nat, ¬Chosen (ofStage .fragment) requests ("tmp_" ++ toString k) := by
    rintro k (hstart | ⟨q, hq, hasks⟩)
    · cases hstart
    · -- no name that is asked for begins as a temporary one does
      have hhead : ("tmp_" ++ toString k).toList.head? = some 't' := by
        rw [String.toList_append]
        rfl
      simp only [requests, List.mem_cons, List.not_mem_nil, or_false] at hq
      rcases hq with rfl | rfl | rfl | rfl | rfl
      · exact hasks
      · rw [hasks] at hhead
        exact absurd hhead (by decide)
      · rcases hasks with heq | ⟨n, heq⟩ <;> rw [heq] at hhead
        · exact absurd hhead (by decide)
        · rw [String.toList_append] at hhead
          exact absurd hhead (by simp)
      · rcases hasks with heq | ⟨n, heq⟩ <;> rw [heq] at hhead
        · exact absurd hhead (by decide)
        · rw [String.toList_append] at hhead
          exact absurd hhead (by simp)
      · exact hasks
  exact ⟨hnone, (makeLocal_isNew (ofStage .fragment) requests "float" none).2.2 hnone⟩

/-- A local whose wanted name is the temporary name that comes next: the unnamed local after it takes
the name over. -/
theorem makeLocal_taken :
    let g := (ofStage .fragment).afterAll [.newLocal "float" (some "tmp_1") none]
    let answer := g.makeLocal "float" none none
    g.find? "tmp_1" = some 0 ∧ answer.1 = 1 ∧
      (answer.2.declared? 0).map (·.name) = some "tmp_1" ∧
      (answer.2.declared? 1).map (·.name) = some "tmp_1" := by
  decide +kernel

end Graph

end SceneShading
