import Mathlib.Data.String.Basic
import Mathlib.Tactic
import SceneShading.Proofs.Codegen.Compilation
import SceneShading.Proofs.Graph.Traversal
import SceneShading.Proofs.Source.Order

/-!
# The layout of declarations

The declarations at file scope are those of the variables that the roots reach. They are printed in
ascending order, except for the position attribute of a vertex stage, which is the first attribute in
this order that mentions a vertex: it goes ahead of all others (`IsOrdered`). An empty line stands
exactly between neighbours whose first letters differ (`IsLaidOut`).

The position is looked for among the declarations ahead of the first one that does not begin with `a`.
These are all attributes, since everything else at file scope begins with a later letter
(`filter_eq_takeWhile_of_pairwise`).
-/

namespace SceneShading

/-- The first letter of a declaration. -/
def firstLetter (declaration : String) : Option Char := declaration.toList.head?

/-! ## Order -/

/-- The declaration is that of an attribute, and mentions a vertex. -/
def MentionsVertex (declaration : String) : Prop :=
  "attribute ".toList <+: declaration.toList ∧ "Vertex".toList <:+: declaration.toList

/-- Declarations in the order in which they are printed: ascending, but in a vertex stage the first
attribute that mentions a vertex was moved to the front. -/
inductive IsOrdered : Stage → List String → Prop where
  | fragment {entries : List String} (sorted : entries.Pairwise (· ≤ ·)) :
    IsOrdered .fragment entries
  | unmoved {entries : List String} (sorted : entries.Pairwise (· ≤ ·))
      (none : ∀ d ∈ entries, ¬MentionsVertex d) : IsOrdered .vertex entries
  | moved {before after : List String} {d : String}
      (sorted : (before ++ d :: after).Pairwise (· ≤ ·)) (mentions : MentionsVertex d)
      (first : ∀ e ∈ before, ¬MentionsVertex e) : IsOrdered .vertex (d :: (before ++ after))

variable {d e : String} {declarations : List String}

/-- A declaration is that of an attribute, or begins with a later letter. -/
lemma Variable.firstLetter_globalDeclaration {v : Variable} (h : v.globalDeclaration = some d) :
    (v.cls = .attribute ∧ d = "attribute " ++ (v.type ++ " " ++ v.name) ++ ";") ∨
      firstLetter d = some 'u' ∨ firstLetter d = some 'v' := by
  have hletter : ∀ word rest : String, firstLetter word ≠ none →
      firstLetter (word ++ rest) = firstLetter word := by
    intro word rest hword
    rw [firstLetter] at *
    rw [String.toList_append, List.head?_append, Option.or_of_isSome (Option.isSome_iff_ne_none.2 hword),
      firstLetter]
  obtain ⟨cls, type, name, value, size⟩ := v
  cases cls with
  | temporary | constant => cases h
  | «attribute» => exact .inl ⟨rfl, (Option.some.inj h).symm⟩
  | varying | sampler =>
    cases h
    refine .inr ?_
    simp only [String.append_assoc]
    rw [hletter _ _ (by decide)]
    decide
  | uniform =>
    refine .inr (.inl ?_)
    cases size <;> cases h <;> simp only [String.append_assoc] <;> exact hletter "uniform " _ (by decide)

/-- What begins with a later letter stands later. -/
lemma not_le_of_firstLetter {a c : Char} (hac : a < c) (hd : firstLetter d = some c)
    (he : firstLetter e = some a) : ¬d ≤ e := by
  rw [firstLetter, List.head?_eq_some_iff] at hd he
  obtain ⟨tail, hd⟩ := hd
  obtain ⟨tail', he⟩ := he
  rw [String.not_le, String.lt_iff_toList_lt, hd, he]
  exact List.cons_lt_cons_iff.2 (.inl hac)

/-- If what stands ahead of an entry with a property has the property, the entries with the property are
those ahead of the first one without it. -/
lemma filter_eq_takeWhile_of_pairwise {α : Type} {p : α → Bool} {entries : List α}
    (h : entries.Pairwise fun a b => p b = true → p a = true) :
    entries.filter p = entries.takeWhile p := by
  induction entries with
  | nil => rfl
  | cons a rest ih =>
    obtain ⟨hfirst, hrest⟩ := List.pairwise_cons.1 h
    by_cases ha : p a = true
    · rw [List.filter_cons_of_pos ha, List.takeWhile_cons_of_pos ha, ih hrest]
    · rw [List.filter_cons_of_neg ha, List.takeWhile_cons_of_neg ha, List.filter_eq_nil_iff]
      exact fun b hb hpb => ha (hfirst b hb hpb)

/-- A text occurs inside another one. -/
lemma Text.occursIn_iff {pattern text : List Char} :
    occursIn pattern text = true ↔ pattern <:+: text := by
  induction text with
  | nil => rw [occursIn, List.isEmpty_iff, List.infix_nil]
  | cons c rest ih =>
    rw [occursIn, Bool.or_eq_true, List.isPrefixOf_iff_prefix, ih, List.infix_cons_iff]

/-- The place of the first entry with a property splits a list. -/
lemma exists_append_of_findIdx? {α : Type} {p : α → Bool} {entries : List α} {i : Nat}
    (h : entries.findIdx? p = some i) :
    ∃ before first after, entries = before ++ first :: after ∧ before.length = i ∧ p first = true ∧
      ∀ a ∈ before, ¬p a = true := by
  obtain ⟨hi, hfirst, hbefore⟩ := List.findIdx?_eq_some_iff_getElem.1 h
  refine ⟨entries.take i, entries[i], entries.drop (i + 1), ?_, List.length_take_of_le hi.le, hfirst,
    fun a ha => ?_⟩
  · rw [List.getElem_cons_drop hi, List.take_append_drop]
  · obtain ⟨j, hj, rfl⟩ := List.getElem_of_mem ha
    rw [List.getElem_take]
    exact hbefore j (hj.trans_le (List.length_take_le i entries))

/-- The entry behind some others goes ahead of them. -/
lemma moveToFront_append {α : Type} (before : List α) (first : α) (after : List α) :
    moveToFront (before ++ first :: after) before.length = first :: (before ++ after) := by
  simp [moveToFront]

section

variable (hdeclared : ∀ d ∈ declarations, "attribute ".toList <+: d.toList ∨
  firstLetter d = some 'u' ∨ firstLetter d = some 'v')

include hdeclared

/-- Among sorted declarations, those ahead of the first one that is not that of an attribute are all
attributes. -/
lemma mem_takeWhile_attribute (hsorted : declarations.Pairwise (· ≤ ·)) :
    d ∈ declarations.takeWhile (fun d => d.toList.head? == some 'a') ↔
      d ∈ declarations ∧ "attribute ".toList <+: d.toList := by
  have hletter : ∀ d ∈ declarations, (d.toList.head? == some 'a') = true ↔
      "attribute ".toList <+: d.toList := by
    intro d hd
    rw [beq_iff_eq]
    constructor
    · intro hhead
      rcases hdeclared d hd with hprefix | hu | hv
      · exact hprefix
      · rw [firstLetter, hhead] at hu
        cases hu
      · rw [firstLetter, hhead] at hv
        cases hv
    · rintro ⟨rest, hrest⟩
      rw [← hrest]
      rfl
  have hahead : declarations.Pairwise fun d e =>
      (e.toList.head? == some 'a') = true → (d.toList.head? == some 'a') = true := by
    refine hsorted.imp_of_mem fun {d e} hd _ hle he => ?_
    refine (hletter d hd).2 ((hdeclared d hd).resolve_right ?_)
    rintro (hu | hv)
    · exact not_le_of_firstLetter (by decide) hu (beq_iff_eq.1 he) hle
    · exact not_le_of_firstLetter (by decide) hv (beq_iff_eq.1 he) hle
  rw [← filter_eq_takeWhile_of_pairwise hahead, List.mem_filter]
  exact and_congr_right (hletter d)

/-- Declarations are printed in order. -/
lemma isOrdered_orderDeclarations (stage : Stage) :
    IsOrdered stage (orderDeclarations stage declarations) := by
  have hsorted := Text.pairwise_sort declarations
  have hperm := Text.sort_perm declarations
  have hdeclared' : ∀ d ∈ Text.sort declarations, "attribute ".toList <+: d.toList ∨
      firstLetter d = some 'u' ∨ firstLetter d = some 'v' :=
    fun d hd => hdeclared d (hperm.mem_iff.1 hd)
  unfold orderDeclarations
  dsimp only
  generalize Text.sort declarations = sorted at hsorted hdeclared'
  cases stage with
  | fragment => exact .fragment hsorted
  | vertex =>
    have hattributes : ∀ {d : String}, d ∈ sorted.takeWhile (fun d => d.toList.head? == some 'a') ↔
        d ∈ sorted ∧ "attribute ".toList <+: d.toList := mem_takeWhile_attribute hdeclared' hsorted
    cases hplace : positionPlace sorted with
    | none =>
      rw [positionPlace, List.findIdx?_eq_none_iff] at hplace
      refine .unmoved hsorted fun d hd hmentions => ?_
      have hnot := hplace d (hattributes.2 ⟨hd, hmentions.1⟩)
      rw [Text.occursIn_iff.2 hmentions.2] at hnot
      cases hnot
    | some i =>
      obtain ⟨before, first, after, htaken, rfl, hoccurs, hbefore⟩ := exists_append_of_findIdx? hplace
      have hfirst : first ∈ sorted ∧ "attribute ".toList <+: first.toList :=
        hattributes.1 (htaken ▸ List.mem_append_cons_self)
      obtain ⟨rest, hrest⟩ := List.takeWhile_prefix (l := sorted) fun d => d.toList.head? == some 'a'
      rw [htaken, List.append_assoc, List.cons_append] at hrest
      rw [← hrest] at hsorted ⊢
      simp only
      rw [moveToFront_append]
      refine .moved hsorted ⟨hfirst.2, Text.occursIn_iff.1 hoccurs⟩ fun e he hvertex => ?_
      exact hbefore e he (Text.occursIn_iff.2 hvertex.2)

end

/-! ## Paragraphs -/

/-- Declarations in paragraphs: what stands together has the same first letter, and what follows upon
each other has not. -/
structure AreParagraphs (entries : List String) (paragraphs : List (List String)) : Prop where
  flatten : paragraphs.flatten = entries
  nonempty : ∀ paragraph ∈ paragraphs, paragraph ≠ []
  together : ∀ paragraph ∈ paragraphs, ∀ d ∈ paragraph, ∀ e ∈ paragraph, firstLetter d = firstLetter e
  apart : paragraphs.IsChain fun paragraph next =>
    ∀ d ∈ paragraph, ∀ e ∈ next, firstLetter d ≠ firstLetter e

namespace AreParagraphs

variable {rest paragraph : List String} {paragraphs : List (List String)}
  (h : AreParagraphs (e :: rest) ((e :: paragraph) :: paragraphs))

include h

/-- A declaration with the first letter of the next one joins its paragraph. -/
lemma join (hletter : firstLetter d = firstLetter e) :
    AreParagraphs (d :: e :: rest) ((d :: e :: paragraph) :: paragraphs) := by
  obtain ⟨htogether, hothers⟩ := List.forall_mem_cons.1 h.together
  have hfirst : ∀ f ∈ d :: e :: paragraph, firstLetter f = firstLetter e :=
    List.forall_mem_cons.2 ⟨hletter, fun f hf => htogether f hf e List.mem_cons_self⟩
  refine ⟨congrArg (d :: ·) h.flatten, List.forall_mem_cons.2 ⟨List.cons_ne_nil _ _, fun p hp =>
    h.nonempty p (List.mem_cons_of_mem _ hp)⟩, List.forall_mem_cons.2 ⟨fun f hf f' hf' =>
      (hfirst f hf).trans (hfirst f' hf').symm, hothers⟩, ?_⟩
  refine List.isChain_cons.2 ⟨fun next hnext f hf f' hf' => ?_, h.apart.tail⟩
  rw [hfirst f hf]
  exact (List.isChain_cons.1 h.apart).1 next hnext e List.mem_cons_self f' hf'

/-- A declaration with another first letter has a paragraph of its own. -/
lemma part (hletter : firstLetter d ≠ firstLetter e) :
    AreParagraphs (d :: e :: rest) ([d] :: (e :: paragraph) :: paragraphs) := by
  obtain ⟨htogether, -⟩ := List.forall_mem_cons.1 h.together
  refine ⟨congrArg (d :: ·) h.flatten, List.forall_mem_cons.2 ⟨List.cons_ne_nil _ _, h.nonempty⟩,
    List.forall_mem_cons.2 ⟨by simp, h.together⟩, List.isChain_cons_cons.2 ⟨?_, h.apart⟩⟩
  intro f hf f' hf'
  rw [List.mem_singleton.1 hf, htogether f' hf' e List.mem_cons_self]
  exact hletter

end AreParagraphs

/-- The block has an entry on each line, and an empty line exactly between neighbours whose first letters
differ. -/
def IsLaidOut (entries : List String) (block : String) : Prop :=
  ∃ paragraphs, AreParagraphs entries paragraphs ∧
    block = "\n\n".intercalate (paragraphs.map fun paragraph => "\n".intercalate paragraph)

/-- Declarations are laid out in paragraphs. -/
lemma isLaidOut_layoutDeclarations (entries : List String) :
    IsLaidOut entries (layoutDeclarations entries) := by
  fun_induction layoutDeclarations with
  | case1 => exact ⟨[], ⟨rfl, by simp, by simp, .nil⟩, rfl⟩
  | case2 d => exact ⟨[[d]], ⟨rfl, by simp, by simp, .singleton _⟩, by simp⟩
  | case3 d e rest gap ih =>
    obtain ⟨paragraphs, hparagraphs, hblock⟩ := ih
    -- the paragraph of the next entry is the first one
    obtain ⟨paragraph, paragraphs, rfl⟩ : ∃ paragraph others, paragraphs = (e :: paragraph) :: others := by
      have hflatten := hparagraphs.flatten
      cases paragraphs with
      | nil => cases hflatten
      | cons paragraph others =>
        cases paragraph with
        | nil => exact absurd rfl (hparagraphs.nonempty [] List.mem_cons_self)
        | cons first paragraph =>
          rw [List.flatten_cons, List.cons_append, List.cons.injEq] at hflatten
          exact ⟨paragraph, others, by rw [hflatten.1]⟩
    have hjoined : layoutDeclarations (e :: rest) = "\n\n".intercalate
        ("\n".intercalate (e :: paragraph) :: paragraphs.map fun p => "\n".intercalate p) := hblock
    rw [hjoined]
    by_cases hletter : firstLetter d = firstLetter e
    · have hgap : gap = "\n" := if_pos hletter
      refine ⟨_, hparagraphs.join hletter, ?_⟩
      rw [hgap, List.map_cons, String.intercalate_cons_cons, String.intercalate_cons_append]
    · have hgap : gap = "\n\n" := if_neg hletter
      refine ⟨_, hparagraphs.part hletter, ?_⟩
      rw [hgap, List.map_cons, List.map_cons, String.intercalate_singleton,
        String.intercalate_cons_cons]

/-! ## Declarations of a graph -/

namespace Graph

/-- The declarations at file scope in the order in which they are printed. -/
def fileDeclarations (g : Graph) (roots : List NodeId) : List String :=
  orderDeclarations g.stage ((g.nodesOf (g.traverse roots)).filterMap Node.globalDeclaration)

/-- The entries are the declarations at file scope of the variables that the roots reach, one for each of
these nodes, in the order in which declarations are printed, and the block is their layout. -/
structure Declares (g : Graph) (roots : List NodeId) (entries : List String) (block : String) : Prop where
  reached : ∃ ids : List NodeId, ids.Nodup ∧
    (∀ id, id ∈ ids ↔ (g.node? id).isSome ∧ ∃ root ∈ roots, g.Reaches root id) ∧
      entries.Perm (ids.filterMap fun id => (g.declared? id).bind Variable.globalDeclaration)
  order : IsOrdered g.stage entries
  layout : IsLaidOut entries block

variable (g : Graph) (roots : List NodeId)

/-- A declaration at file scope is that of a variable that the roots reach. -/
lemma mem_fileDeclarations {g : Graph} {roots : List NodeId} {d : String} :
    d ∈ g.fileDeclarations roots ↔ ∃ v ∈ g.fileVariables roots, v.globalDeclaration = some d := by
  rw [fileDeclarations, (orderDeclarations_perm _ _).mem_iff, filterMap_globalDeclaration,
    List.mem_filterMap]

/-- The block at file scope declares what the roots reach. -/
theorem declares_globalBlock :
    g.Declares roots (g.fileDeclarations roots) (globalBlock g.stage (g.nodesOf (g.traverse roots))) := by
  refine ⟨⟨g.traverse roots, g.nodup_traverse roots, fun id => ⟨fun hid => ?_, ?_⟩, ?_⟩, ?_,
    isLaidOut_layoutDeclarations _⟩
  · exact reaches_walk (((g.extends_walk roots).1.once ⟨List.nodup_nil, List.Subset.refl _⟩).2 hid)
  · rintro ⟨hnode, root, hroot, hreaches⟩
    exact mem_traverse_of_reaches hroot hreaches hnode
  · rw [fileDeclarations]
    refine (orderDeclarations_perm _ _).trans (.of_eq ?_)
    rw [nodesOf, List.filterMap_filterMap]
    refine List.filterMap_congr fun id _ => ?_
    rw [declared?]
    cases g.node? id <;> rfl
  · refine isOrdered_orderDeclarations (fun d hd => ?_) g.stage
    rw [filterMap_globalDeclaration] at hd
    obtain ⟨v, -, hv⟩ := List.mem_filterMap.1 hd
    refine (Variable.firstLetter_globalDeclaration hv).imp_left ?_
    rintro ⟨-, rfl⟩
    rw [String.append_assoc, String.toList_append]
    exact List.prefix_append _ _

end Graph

end SceneShading
