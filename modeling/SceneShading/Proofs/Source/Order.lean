import Mathlib.Tactic
import SceneShading.Proofs.Source.FiniteMap

/-!
# Sources do not depend on orders

Extensions and definitions reach the source of a program in the order in which its nodes were walked,
and symbols are numbered in the order in which texts were first met. The source shows neither: the
extensions are printed in the order of their texts and each once (`Text.sortUnique_congr`), and what is
printed of the definitions, and what the conditions in the body ask of them, depends on the map that
they define (`MacroSet.Represents.lines_eq`, `MacroSet.Represents.contains_eq`).
-/

namespace SceneShading

/-! ## Sorted texts -/

namespace Text

variable {texts texts' : List String} {a b c : String}

lemma lt_of_lt_of_le (hab : a < b) (hbc : b ≤ c) : a < c := by
  refine Decidable.byContradiction fun hac => ?_
  exact String.not_lt.2 (String.le_trans hbc (String.not_lt.1 hac)) hab

lemma lt_of_le_of_ne (hab : a ≤ b) (hne : a ≠ b) : a < b :=
  Decidable.byContradiction fun h => hne (String.le_antisymm hab (String.not_lt.1 h))

/-- Sorted texts stand in ascending order. -/
lemma pairwise_sort (texts : List String) : (sort texts).Pairwise (· ≤ ·) := by
  have hle : ∀ a b : String, decide (¬b < a) = true ↔ a ≤ b := fun a b => by
    rw [decide_eq_true_iff, String.not_lt]
  refine (List.pairwise_mergeSort (fun a b c hab hbc => ?_) (fun a b => ?_) texts).imp (hle _ _).1
  · exact (hle a c).2 (String.le_trans ((hle a b).1 hab) ((hle b c).1 hbc))
  · rw [Bool.or_eq_true, hle, hle]
    exact String.le_total a b

/-- Different texts are sorted strictly. -/
lemma pairwise_sort_of_nodup (h : texts.Nodup) : (sort texts).Pairwise (· < ·) :=
  (pairwise_sort texts).imp₂ (fun _ _ => lt_of_le_of_ne) ((sort_perm texts).nodup_iff.2 h)

/-- Without repetitions, an ascending order is strict. -/
lemma pairwise_dropRepeats (h : texts.Pairwise (· ≤ ·)) : (dropRepeats texts).Pairwise (· < ·) := by
  fun_induction dropRepeats with
  | case1 => exact .nil
  | case2 a => exact List.pairwise_singleton _ a
  | case3 a r ih => exact ih (List.pairwise_cons.1 h).2
  | case4 a b r hne ih =>
    obtain ⟨hfirst, hrest⟩ := List.pairwise_cons.1 h
    refine List.pairwise_cons.2 ⟨fun c hc => ?_, ih hrest⟩
    have hab : a < b := lt_of_le_of_ne (hfirst b List.mem_cons_self) hne
    rcases List.mem_cons.1 (Source.mem_dropRepeats.1 hc) with rfl | hc
    · exact hab
    · exact lt_of_lt_of_le hab ((List.pairwise_cons.1 hrest).1 c hc)

/-- Strictly sorted texts are determined by their members. -/
lemma eq_of_mem_iff (h : texts.Pairwise (· < ·)) (h' : texts'.Pairwise (· < ·))
    (hmem : ∀ text, text ∈ texts ↔ text ∈ texts') : texts = texts' := by
  have hnodup : ∀ {texts : List String}, texts.Pairwise (· < ·) → texts.Nodup := fun hsorted =>
    hsorted.imp fun {a b} (hlt : a < b) (heq : a = b) => String.lt_irrefl b (heq ▸ hlt)
  refine ((List.perm_ext_iff_of_nodup (hnodup h) (hnodup h')).2 hmem).eq_of_pairwise
    (fun a b _ _ hab hba => absurd hba (String.lt_asymm hab)) h h'

/-- What is printed of texts, each once, is determined by their members. -/
lemma sortUnique_congr (h : ∀ text, text ∈ texts ↔ text ∈ texts') :
    sortUnique texts = sortUnique texts' := by
  refine eq_of_mem_iff (pairwise_dropRepeats (pairwise_sort texts))
    (pairwise_dropRepeats (pairwise_sort texts')) fun text => ?_
  exact Source.mem_sortUnique.trans ((h text).trans Source.mem_sortUnique.symm)

end Text

/-! ## Printed definitions -/

namespace MacroSet.Represents

variable {pool pool' : SymbolPool} {d d' : MacroSet} {m : MacroMap} {name : String}

/-- The lines of different values are different, so they are sorted strictly. -/
lemma pairwise_lines (h : Represents pool d m) (hm : m.Readable) :
    (d.lines pool).Pairwise (· < ·) := by
  refine Text.pairwise_sort_of_nodup (List.Nodup.map_on (fun e he e' he' heq => ?_) ?_)
  · obtain ⟨name, value, hspells⟩ := h.spelled e he
    obtain ⟨name', value', hspells'⟩ := h.spelled e' he'
    obtain ⟨line, hline⟩ := hm name value ((h.lookup_iff _ _).2 ⟨e, hspells⟩)
    obtain ⟨line', hline'⟩ := hm name' value' ((h.lookup_iff _ _).2 ⟨e', hspells'⟩)
    rw [SymbolPool.resolve_of_get? hspells.2.1, SymbolPool.resolve_of_get? hspells.2.2,
      SymbolPool.resolve_of_get? hspells'.2.1, SymbolPool.resolve_of_get? hspells'.2.2] at heq
    have hparsed := parseDefineLine_defineLine hline
    rw [heq, parseDefineLine_defineLine hline', Option.some.injEq, Prod.mk.injEq] at hparsed
    obtain ⟨rfl, rfl⟩ := hparsed
    exact h.sorted.eq_of_key he he' (Option.some.inj (hspells.2.1.symm.trans hspells'.2.1))
  · exact h.sorted.imp fun hlt heq => hlt.ne (congrArg (·.1.index) heq)

/-- The lines of a set are determined by its map. -/
lemma lines_eq (h : Represents pool d m) (h' : Represents pool' d' m) (hm : m.Readable) :
    d.lines pool = d'.lines pool' :=
  Text.eq_of_mem_iff (h.pairwise_lines hm) (h'.pairwise_lines hm) fun _ =>
    h.mem_lines_iff.trans h'.mem_lines_iff.symm

/-- One line defines a name of the map. -/
lemma existsUnique_line (h : Represents pool d m) (hm : m.Readable) (hname : name ∈ m) :
    ∃! line, line ∈ d.lines pool ∧ ∃ value, parseDefineLine line = some (name, value) := by
  obtain ⟨value, hlookup⟩ := Finmap.mem_iff.1 hname
  obtain ⟨line, hline, hparsed⟩ := (h.exists_mem_lines_iff hm).2 hlookup
  refine ⟨line, ⟨hline, value, hparsed⟩, ?_⟩
  have hprinted : ∀ other ∈ d.lines pool, ∀ v, parseDefineLine other = some (name, v) →
      other = defineLine name value := by
    intro other hother v hv
    obtain ⟨name', v', hlookup', rfl⟩ := h.mem_lines_iff.1 hother
    obtain ⟨source, hsource⟩ := hm name' v' hlookup'
    rw [parseDefineLine_defineLine hsource, Option.some.injEq, Prod.mk.injEq] at hv
    obtain ⟨rfl, rfl⟩ := hv
    rw [hlookup, Option.some.injEq] at hlookup'
    rw [hlookup']
  rintro other ⟨hother, v, hv⟩
  rw [hprinted other hother v hv, hprinted line hline value hparsed]

end MacroSet.Represents

/-! ## Sources -/

namespace Source

/-- The skeleton is handed the definitions that hold in the body. -/
lemma lookup_prepare (pool : SymbolPool) (lib : Library) (settings : Settings) (body : String)
    (defines extensions : List String) :
    (prepare pool lib settings body defines extensions).2.lookup "defines" =
      some (.list (expandBody pool lib body defines).2) :=
  rfl

/-- **A source does not depend on the orders of its extensions and definitions.** Whatever texts were met
before, two lists of the same extensions and two lists of definitions that define the same map, the last
value of a name winning, give the same source with the same problems; and the definitions that the
skeleton is handed are sorted strictly and have one line for every name that is defined, and no other. -/
theorem process_unordered (pool pool' : SymbolPool) (lib : Library) (settings : Settings)
    (body : String) {defines defines' extensions extensions' : List String}
    (hdefines : MacroMap.ofLines defines = MacroMap.ofLines defines')
    (hextensions : ∀ line, line ∈ extensions ↔ line ∈ extensions') :
    process pool lib settings body defines extensions =
        process pool' lib settings body defines' extensions' ∧
      ∃ lines, (prepare pool lib settings body defines extensions).2.lookup "defines" =
          some (.list lines) ∧
        lines.Pairwise (· < ·) ∧
        (∀ line ∈ lines, ∃ name ∈ MacroMap.ofLines defines,
          ∃ value, parseDefineLine line = some (name, value)) ∧
        ∀ name ∈ MacroMap.ofLines defines,
          ∃! line, line ∈ lines ∧ ∃ value, parseDefineLine line = some (name, value) := by
  have hread : (MacroMap.ofLines defines).Readable := .ofLines defines
  obtain ⟨-, hset⟩ := MacroSet.Represents.ofLines pool defines
  obtain ⟨-, hset'⟩ := MacroSet.Represents.ofLines pool' defines'
  rw [← hdefines] at hset'
  -- the body asks the same of both sets, and both print the same
  have hexpanded : expandBody pool lib body defines = expandBody pool' lib body defines' := by
    have hasked : (MacroSet.ofLines pool defines).2.contains (MacroSet.ofLines pool defines).1 =
        (MacroSet.ofLines pool' defines').2.contains (MacroSet.ofLines pool' defines').1 := by
      funext name
      rw [hset.contains_eq, hset'.contains_eq]
    exact Prod.ext (congrArg (resolveIncludes lib · body) hasked) (hset.lines_eq hset' hread)
  have hprepared : prepare pool lib settings body defines extensions =
      prepare pool' lib settings body defines' extensions' := by
    unfold prepare
    rw [hexpanded, Text.sortUnique_congr hextensions]
  refine ⟨by rw [process, hprepared, process], _, lookup_prepare pool lib settings body defines
    extensions, hset.pairwise_lines hread, fun line hline => ?_, fun name hname =>
    hset.existsUnique_line hread hname⟩
  obtain ⟨name, value, hlookup, rfl⟩ := hset.mem_lines_iff.1 hline
  obtain ⟨source, hsource⟩ := hread name value hlookup
  exact ⟨name, Finmap.mem_of_lookup_eq_some hlookup, value, parseDefineLine_defineLine hsource⟩

/-- Two lists of definitions that define the same, and two lists of the same extensions. -/
theorem process_unordered_overridden :
    MacroMap.ofLines ["#define _PCFx4", "#define _ESM 1", "#define  _PCFx4  2"] =
        MacroMap.ofLines ["#define _PCFx4 2", "precision", "#define _ESM 1 "] ∧
      (∀ line, line ∈ ["b", "a"] ↔ line ∈ ["a", "b", "a"]) ∧
      process .empty {} {} "" ["#define _PCFx4", "#define _ESM 1", "#define  _PCFx4  2"] ["b", "a"] =
        process .common {} {} "" ["#define _PCFx4 2", "precision", "#define _ESM 1 "] ["a", "b", "a"] := by
  have hdefines : MacroMap.ofLines ["#define _PCFx4", "#define _ESM 1", "#define  _PCFx4  2"] =
      MacroMap.ofLines ["#define _PCFx4 2", "precision", "#define _ESM 1 "] := by
    decide +kernel
  have hextensions : ∀ line, line ∈ ["b", "a"] ↔ line ∈ ["a", "b", "a"] := by
    intro line
    simp only [List.mem_cons, List.not_mem_nil, or_false]
    tauto
  exact ⟨hdefines, hextensions, (process_unordered .empty .common {} {} "" hdefines hextensions).1⟩

end Source

end SceneShading
