import Mathlib.Tactic
import SceneShading.Codegen.Declaration
import SceneShading.Graph.Builder
import SceneShading.Graph.Traverse

/-!
# What the preprocessor is told

The definitions of a program are collected from its nodes in the order of the walk, and of several
nodes with one key only the first one speaks (`mem_firstByKey`). The key of a definition is the name
that it defines, and the key of any other node is the name of its type. So the first definition of a
name is handed on, unless a node that comes before it has a type of that name: then every definition
of the name is without effect (`Graph.collectDefines_traverse`), by `firstByKey_filter`.
-/

namespace SceneShading

/-! ## The first entries of their keys -/

section FirstByKey

variable {α : Type} {key : α → String} {seen : List String} {as : List α} {a b : α}

/-- The entries that are kept are the first ones of their keys. -/
lemma mem_firstByKey :
    a ∈ firstByKey key seen as ↔ key a ∉ seen ∧
      ∃ before after, as = before ++ a :: after ∧ ∀ b ∈ before, key b ≠ key a := by
  induction as generalizing seen with
  | nil => simp [firstByKey]
  | cons first as ih =>
    rw [firstByKey]
    have hcons : (∃ before after, first :: as = before ++ a :: after ∧ ∀ b ∈ before, key b ≠ key a) ↔
        first = a ∨ key first ≠ key a ∧
          ∃ before after, as = before ++ a :: after ∧ ∀ b ∈ before, key b ≠ key a := by
      constructor
      · rintro ⟨before, after, hsplit, hbefore⟩
        cases before with
        | nil => exact .inl (List.cons.inj hsplit).1
        | cons b before =>
          obtain ⟨rfl, rfl⟩ := List.cons.inj hsplit
          obtain ⟨hfirst, hrest⟩ := List.forall_mem_cons.1 hbefore
          exact .inr ⟨hfirst, before, after, rfl, hrest⟩
      · rintro (rfl | ⟨hfirst, before, after, rfl, hbefore⟩)
        · exact ⟨[], as, rfl, List.forall_mem_nil _⟩
        · exact ⟨first :: before, after, rfl, List.forall_mem_cons.2 ⟨hfirst, hbefore⟩⟩
    rw [hcons]
    split
    next hseen =>
      rw [ih]
      refine and_congr_right fun hnew => ?_
      have hne : key first ≠ key a := by
        intro heq
        rw [heq, List.contains_iff_mem] at hseen
        exact hnew hseen
      have hnot : first ≠ a := fun heq => hne (congrArg key heq)
      simp only [hne, hnot, ne_eq, not_false_eq_true, true_and, false_or]
    next hseen =>
      rw [List.contains_iff_mem] at hseen
      rw [List.mem_cons, ih, List.mem_cons, not_or]
      constructor
      · rintro (rfl | ⟨⟨hfirst, hnew⟩, hrest⟩)
        · exact ⟨hseen, .inl rfl⟩
        · exact ⟨hnew, .inr ⟨Ne.symm hfirst, hrest⟩⟩
      · rintro ⟨hnew, rfl | ⟨hfirst, hrest⟩⟩
        · exact .inl rfl
        · exact .inr ⟨⟨Ne.symm hfirst, hnew⟩, hrest⟩

/-- What is kept is one of the entries. -/
lemma mem_of_mem_firstByKey (h : a ∈ firstByKey key seen as) : a ∈ as := by
  obtain ⟨-, before, after, rfl, -⟩ := mem_firstByKey.1 h
  exact List.mem_append_right _ List.mem_cons_self

/-- Every key has an entry that is kept. -/
lemma exists_mem_firstByKey (ha : a ∈ as) : ∃ b ∈ firstByKey key [] as, key b = key a := by
  have hfound : (as.find? fun b => key b == key a).isSome :=
    List.find?_isSome.2 ⟨a, ha, BEq.rfl⟩
  obtain ⟨b, hb⟩ := Option.isSome_iff_exists.1 hfound
  obtain ⟨hkey, before, after, hsplit, hbefore⟩ := List.find?_eq_some_iff_append.1 hb
  refine ⟨b, mem_firstByKey.2 ⟨List.not_mem_nil, before, after, hsplit, fun c hc heq => ?_⟩,
    beq_iff_eq.1 hkey⟩
  have hne := hbefore c hc
  rw [heq, hkey] at hne
  cases hne

/-- No two entries that are kept have the same key. -/
lemma eq_of_mem_firstByKey (ha : a ∈ firstByKey key seen as) (hb : b ∈ firstByKey key seen as)
    (hkey : key a = key b) : a = b := by
  induction as generalizing seen with
  | nil => cases ha
  | cons first as ih =>
    rw [firstByKey] at ha hb
    split at ha
    next hseen =>
      rw [if_pos hseen] at hb
      exact ih ha hb
    next hseen =>
      rw [if_neg hseen] at hb
      have hnew : ∀ c ∈ firstByKey key (key first :: seen) as, key c ≠ key first :=
        fun c hc heq => (mem_firstByKey.1 hc).1 (heq ▸ List.mem_cons_self)
      rcases List.mem_cons.1 ha with rfl | ha <;> rcases List.mem_cons.1 hb with rfl | hb
      · rfl
      · exact absurd hkey.symm (hnew b hb)
      · exact absurd hkey (hnew a ha)
      · exact ih ha hb

/-- The keys of the entries that are kept are pairwise different. -/
lemma pairwise_firstByKey : (firstByKey key seen as).Pairwise fun a b => key a ≠ key b := by
  induction as generalizing seen with
  | nil => exact .nil
  | cons first as ih =>
    rw [firstByKey]
    split
    next => exact ih
    next =>
      refine .cons (fun b hb heq => ?_) ih
      exact (mem_firstByKey.1 hb).1 (heq ▸ List.mem_cons_self)

/-- Entries whose key an earlier entry has are without effect. -/
lemma firstByKey_filter {keep : α → Bool} (h : ∀ before a after, as = before ++ a :: after →
      keep a = false → key a ∈ seen ∨ ∃ b ∈ before, keep b ∧ key b = key a) :
    firstByKey key seen as = firstByKey key seen (as.filter keep) := by
  induction as generalizing seen with
  | nil => rfl
  | cons first as ih =>
    -- what holds behind the first entry, once its key counts as seen if the entry stays
    have hrest : ∀ seen', seen ⊆ seen' → (keep first → key first ∈ seen') →
        firstByKey key seen' as = firstByKey key seen' (as.filter keep) := by
      intro seen' hsub hfirst
      refine ih fun before a after hsplit hdrop => ?_
      rcases h (first :: before) a after (by rw [hsplit, List.cons_append]) hdrop with
        hseen | ⟨b, hb, hkeep, hkey⟩
      · exact .inl (hsub hseen)
      · rcases List.mem_cons.1 hb with rfl | hb
        · exact .inl (hkey ▸ hfirst hkeep)
        · exact .inr ⟨b, hb, hkeep, hkey⟩
    rw [List.filter_cons, firstByKey]
    cases hkeep : keep first with
    | false =>
      have hseen : key first ∈ seen := by
        rcases h [] first as rfl hkeep with hseen | ⟨b, hb, -⟩
        · exact hseen
        · cases hb
      rw [if_pos (List.contains_iff_mem.2 hseen)]
      exact hrest seen (List.Subset.refl _) fun hkept => absurd hkept (by rw [hkeep]; decide)
    | true =>
      rw [if_pos rfl, firstByKey]
      split
      next hseen => exact hrest seen (List.Subset.refl _) fun _ => List.contains_iff_mem.1 hseen
      next => rw [hrest _ (List.subset_cons_self _ _) fun _ => List.mem_cons_self]

end FirstByKey

/-! ## Definitions -/

namespace Node

variable {n : Node} {name value : String}

/-- The name that a node defines. -/
def definedName? (n : Node) : Option String :=
  match n.kind with
  | .define name _ => some name
  | _ => none

/-- A node that defines nothing by itself, of a type with the name. -/
def Occupies (n : Node) (name : String) : Prop := n.definedName? = none ∧ n.typeName = name

instance : Decidable (n.Occupies name) := inferInstanceAs (Decidable (_ ∧ _))

/-- The key of a name is the key of its definitions, and of the nodes that have it for a type. -/
lemma defineKey_eq_iff : n.defineKey = name ↔ n.definedName? = some name ∨ n.Occupies name := by
  unfold Occupies defineKey definedName?
  cases n.kind <;> simp

end Node

namespace Graph

/-- **The first definition of a name is handed to the preprocessor, or none is.** Whatever a walk
reaches, the line of the first definition of a name is among the definitions of the program if no node
before it has a type of that name; and if there is such a node, then the definitions of the program are
those that it has without all definitions of the name. -/
theorem collectDefines_traverse (g : Graph) (roots : List NodeId) {name value : String}
    {before after : List Node} {n : Node}
    (hsplit : g.nodesOf (g.traverse roots) = before ++ n :: after)
    (hkind : n.kind = .define name value) (hfirst : ∀ m ∈ before, m.definedName? ≠ some name) :
    ((∀ m ∈ before, ¬m.Occupies name) →
        defineLine name value ∈ collectDefines (g.nodesOf (g.traverse roots))) ∧
      ((∃ m ∈ before, m.Occupies name) →
        collectDefines (g.nodesOf (g.traverse roots)) = collectDefines
          ((g.nodesOf (g.traverse roots)).filter fun m => m.definedName? ≠ some name)) := by
  rw [hsplit]
  constructor
  · intro hfree
    have hkey : n.defineKey = name := by rw [Node.defineKey, hkind]
    have hkept : n ∈ firstByKey Node.defineKey [] (before ++ n :: after) := by
      refine mem_firstByKey.2 ⟨List.not_mem_nil, before, after, rfl, fun m hm heq => ?_⟩
      rw [hkey, Node.defineKey_eq_iff] at heq
      exact heq.elim (hfirst m hm) (hfree m hm)
    refine List.mem_flatMap.2 ⟨n, hkept, ?_⟩
    rw [Node.defines, hkind]
    exact List.mem_singleton_self _
  · rintro ⟨m, hm, hoccupies⟩
    rw [collectDefines, collectDefines, firstByKey_filter]
    intro front a rest hfront hdrop
    have hdefined : a.definedName? = some name := not_not.1 (of_decide_eq_false hdrop)
    -- no definition of the name comes before the first one, so the occupant is in front of it
    have hmem : m ∈ front := by
      rcases List.append_eq_append_iff.1 hfront with ⟨between, rfl, -⟩ | ⟨between, rfl, hrest⟩
      · exact List.mem_append_left _ hm
      · cases between with
        | nil => rwa [List.append_nil] at hm
        | cons b between =>
          obtain ⟨rfl, -⟩ := List.cons.inj hrest
          exact absurd hdefined (hfirst a (List.mem_append_right _ List.mem_cons_self))
    refine .inr ⟨m, hmem, decide_eq_true (hfirst m hm), ?_⟩
    rw [Node.defineKey_eq_iff.2 (.inr hoccupies), Node.defineKey_eq_iff.2 (.inl hdefined)]

/-- A color, a name that is defined twice, and the definition of a name that the color occupies. -/
def defining : Graph where
  stage := .fragment
  nodes := #[
    { id := 0, kind := .output .fragColor },
    { id := 1, kind := .define "HALF" "0.5" },
    { id := 2, kind := .define "HALF" "0.25" },
    { id := 3, kind := .define "glFragColor" "1" }]

/-- The first definition of the one name is handed on, and the definition of the other is not. -/
theorem collectDefines_defining :
    defineLine "HALF" "0.5" ∈ collectDefines (defining.nodesOf (defining.traverse [0, 1, 2, 3])) ∧
      defineLine "glFragColor" "1" ∉
        collectDefines (defining.nodesOf (defining.traverse [0, 1, 2, 3])) := by
  obtain ⟨hhanded, -⟩ := @collectDefines_traverse defining [0, 1, 2, 3] "HALF" "0.5" [_] [_, _] _
    rfl rfl (by decide)
  obtain ⟨-, hlost⟩ := @collectDefines_traverse defining [0, 1, 2, 3] "glFragColor" "1" [_, _, _] [] _
    rfl rfl (by decide)
  refine ⟨hhanded (by decide), ?_⟩
  rw [hlost (by decide)]
  decide +kernel

end Graph

end SceneShading
