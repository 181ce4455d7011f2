import Mathlib.Data.Finmap
import Mathlib.Tactic
import SceneShading.Proofs.Source.Defined

/-!
# Sets of definitions as finite maps

A set of definitions represents a map, and the map decides every answer of the set. Over one pool it
decides the set itself (`MacroSet.Represents.eq_iff`), and if its values come from lines, then the set is
read back from its own lines (`MacroSet.Represents.ofLines_lines`).

Several sets share a pool, and all that is done with one of them makes the pool grow, which leaves what
the others represent (`MacroSet.Represents.mono`). So a sequence of calls to any number of sets can be
followed on their maps (`MacroDesk.run_follows`).
-/

namespace SceneShading

/-! ## Maps that come from lines -/

namespace MacroMap

variable {m : MacroMap} {lines : List String} {name value : String}

/-- Every value can be read from a line. -/
def Readable (m : MacroMap) : Prop :=
  ∀ name value, m.lookup name = some value → ∃ line, parseDefineLine line = some (name, value)

lemma Readable.empty : Readable ∅ := by
  intro name value h
  rw [Finmap.lookup_empty] at h
  cases h

lemma Readable.push (h : m.Readable) (line : String) : (m.push line).Readable := by
  intro name value hlookup
  unfold MacroMap.push at hlookup
  split at hlookup
  next other v hparsed =>
    rcases lookup_insert_eq_some_iff.1 hlookup with ⟨rfl, rfl⟩ | ⟨-, hold⟩
    · exact ⟨line, hparsed⟩
    · exact h name value hold
  next => exact h name value hlookup

lemma Readable.ofLines (lines : List String) : (ofLines lines).Readable := fun _ _ hlookup =>
  (exists_line_of_lookup hlookup).imp fun _ h => h.2

lemma Readable.erase (h : m.Readable) (name : String) : Readable (m.erase name) := by
  intro other value hlookup
  by_cases hne : other = name
  · subst hne
    rw [Finmap.lookup_erase] at hlookup
    cases hlookup
  · rw [Finmap.lookup_erase_ne hne] at hlookup
    exact h other value hlookup

lemma Readable.union {m' : MacroMap} (h : m.Readable) (h' : m'.Readable) : Readable (m ∪ m') := by
  intro name value hlookup
  rcases Finmap.mem_lookup_union.1 hlookup with hleft | ⟨-, hright⟩
  · exact h name value hleft
  · exact h' name value hright

/-- If no two lines define a name differently, the map has what the lines define. -/
lemma lookup_ofLines_iff (h : ∀ line ∈ lines, ∀ line' ∈ lines, ∀ name v v',
      parseDefineLine line = some (name, v) → parseDefineLine line' = some (name, v') → v = v') :
    (ofLines lines).lookup name = some value ↔
      ∃ line ∈ lines, parseDefineLine line = some (name, value) := by
  refine ⟨exists_line_of_lookup, ?_⟩
  rintro ⟨line, hline, hparsed⟩
  obtain ⟨v, hlookup⟩ := Finmap.mem_iff.1 (mem_ofLines_iff.2 ⟨line, hline, value, hparsed⟩)
  obtain ⟨line', hline', hparsed'⟩ := exists_line_of_lookup hlookup
  rw [h line hline line' hline' name value v hparsed hparsed', hlookup]

end MacroMap

namespace MacroSet

/-! ## Entries -/

section Entries

variable {n v : Symbol} {d other : MacroSet}

lemma getSymbol?_eq_some_iff (h : Sorted d.entries) :
    d.getSymbol? n = some v ↔ (n, v) ∈ d.entries := by
  rw [getSymbol?, Option.map_eq_some_iff]
  constructor
  · rintro ⟨e, hfind, rfl⟩
    have hkey : e.1 = n := by simpa using List.find?_some hfind
    exact hkey ▸ List.mem_of_find?_eq_some hfind
  · intro hmem
    have hfound : (d.entries.find? fun e => decide (e.1 = n)).isSome :=
      List.find?_isSome.2 ⟨(n, v), hmem, decide_eq_true rfl⟩
    obtain ⟨e, hfind⟩ := Option.isSome_iff_exists.1 hfound
    have hkey : e.1 = n := by simpa using List.find?_some hfind
    have heq := h.eq_of_key (List.mem_of_find?_eq_some hfind) hmem hkey
    exact ⟨e, hfind, by rw [heq]⟩

/-- The entries of a merged set win. -/
lemma mem_merge_iff (h : Sorted d.entries) (ho : Sorted other.entries) :
    Sorted (d.merge other).entries ∧ ∀ e, e ∈ (d.merge other).entries ↔
      e ∈ other.entries ∨ e ∈ d.entries ∧ ∀ o ∈ other.entries, e.1 ≠ o.1 := by
  unfold merge
  generalize other.entries = news at ho ⊢
  induction news generalizing d with
  | nil => exact ⟨h, fun e => by simp⟩
  | cons first news ih =>
    obtain ⟨hfirst, hnews⟩ := List.pairwise_cons.1 ho
    obtain ⟨hsorted, hmem⟩ := @ih (d.setSymbol first.1 first.2) (h.setEntry _ _) hnews
    refine ⟨hsorted, fun e => ?_⟩
    have hother : ∀ o ∈ news, first.1 ≠ o.1 := fun o ho heq =>
      (hfirst o ho).ne (congrArg Symbol.index heq)
    rw [List.foldl_cons, hmem, setSymbol, mem_setEntry_iff h, List.mem_cons, List.forall_mem_cons]
    constructor
    · rintro (he | ⟨rfl | ⟨he, hne⟩, hall⟩)
      · exact .inl (.inr he)
      · exact .inl (.inl rfl)
      · exact .inr ⟨he, hne, hall⟩
    · rintro ((rfl | he) | ⟨he, hne, hall⟩)
      · exact .inr ⟨.inl rfl, hother⟩
      · exact .inl he
      · exact .inr ⟨.inr ⟨he, hne⟩, hall⟩

end Entries

namespace Represents

variable {pool : SymbolPool} {d d' other : MacroSet} {m m' : MacroMap} {name value : String}

/-! ## Answers -/

/-- A name has the value of the map. -/
lemma get?_eq (h : Represents pool d m) (name : String) : d.get? pool name = m.lookup name := by
  refine Option.ext fun value => ?_
  rw [h.lookup_iff]
  simp only [MacroSet.get?, Option.bind_eq_bind, Option.pure_def, Option.bind_eq_some_iff,
    Option.some.injEq, getSymbol?_eq_some_iff h.sorted]
  constructor
  · rintro ⟨n, hn, v, hmem, rfl⟩
    obtain ⟨name', value', -, hname, hvalue⟩ := h.spelled _ hmem
    obtain rfl := SymbolPool.eq_of_get? hn hname
    exact ⟨(n, v), hmem, hname, by rw [SymbolPool.resolve_of_get? hvalue]; exact hvalue⟩
  · rintro ⟨e, he, hname, hvalue⟩
    exact ⟨e.1, hname, e.2, he, SymbolPool.resolve_of_get? hvalue⟩

lemma contains_eq (h : Represents pool d m) (name : String) :
    d.contains pool name = decide (name ∈ m) := by
  rw [Bool.eq_iff_iff, h.contains_iff, decide_eq_true_iff]

/-- A set has as many entries as the map has names. -/
lemma size_eq (h : Represents pool d m) : d.size = m.keys.card := by
  have hkeys : m.keys = (d.entries.map fun e => pool.resolve e.1).toFinset := by
    ext name
    rw [Finmap.mem_keys, ← h.contains_iff, contains, Option.any_eq_true, List.mem_toFinset, List.mem_map]
    constructor
    · rintro ⟨n, hn, hcontains⟩
      obtain ⟨e, he, hkey⟩ := List.any_eq_true.1 hcontains
      exact ⟨e, he, by rw [of_decide_eq_true hkey, SymbolPool.resolve_of_get? hn]⟩
    · rintro ⟨e, he, rfl⟩
      obtain ⟨name, value, -, hname, -⟩ := h.spelled e he
      rw [SymbolPool.resolve_of_get? hname]
      exact ⟨e.1, hname, List.any_eq_true.2 ⟨e, he, decide_eq_true rfl⟩⟩
  have hnodup : (d.entries.map fun e => pool.resolve e.1).Nodup := by
    refine List.Nodup.map_on (fun e he e' he' heq => ?_)
      (h.sorted.imp fun hlt heq => hlt.ne (congrArg (·.1.index) heq))
    obtain ⟨name, value, -, hname, -⟩ := h.spelled e he
    obtain ⟨name', value', -, hname', -⟩ := h.spelled e' he'
    rw [SymbolPool.resolve_of_get? hname, SymbolPool.resolve_of_get? hname'] at heq
    exact h.sorted.eq_of_key he he' (Option.some.inj (hname.symm.trans (heq ▸ hname')))
  rw [hkeys, List.toFinset_card_of_nodup hnodup, List.length_map, size]

/-- Sets of one map have the same entries. -/
lemma subset (h : Represents pool d m) (h' : Represents pool d' m) : d.entries ⊆ d'.entries := by
  intro e he
  obtain ⟨name, value, hspells⟩ := h.spelled e he
  obtain ⟨e', he', hname, hvalue⟩ := (h'.lookup_iff _ _).1 ((h.lookup_iff _ _).2 ⟨e, hspells⟩)
  have heq : e = e' := Prod.ext (Option.some.inj (hspells.2.1.symm.trans hname))
    (Option.some.inj (hspells.2.2.symm.trans hvalue))
  exact heq ▸ he'

/-- **Over one pool, sets are equal exactly if their maps are.** -/
lemma eq_iff (h : Represents pool d m) (h' : Represents pool d' m') : d = d' ↔ m = m' := by
  constructor
  · rintro rfl
    exact Finmap.ext_lookup fun name => (h.get?_eq name).symm.trans (h'.get?_eq name)
  · rintro rfl
    have hnodup : ∀ {d : MacroSet}, Sorted d.entries → d.entries.Nodup := fun hsorted =>
      hsorted.imp fun hlt heq => hlt.ne (congrArg (·.1.index) heq)
    have hperm : d.entries.Perm d'.entries :=
      (List.perm_ext_iff_of_nodup (hnodup h.sorted) (hnodup h'.sorted)).2 fun e =>
        ⟨fun he => h.subset h' he, fun he => h'.subset h he⟩
    have heq := hperm.eq_of_pairwise (fun a b _ _ hab hba => absurd hab hba.asymm) h.sorted h'.sorted
    exact congrArg MacroSet.mk heq

/-! ## Changes -/

/-- A name is removed from the map, and was there if the map had it. -/
lemma remove (h : Represents pool d m) (name : String) :
    Represents pool (d.remove pool name).1 (m.erase name) ∧
      (d.remove pool name).2 = decide (name ∈ m) := by
  have hanswer : (d.remove pool name).2 = d.contains pool name := by
    unfold MacroSet.remove contains
    cases pool.get? name <;> rfl
  refine ⟨?_, hanswer.trans (h.contains_eq name)⟩
  -- the entries of other names stay
  have hmem : ∀ e, e ∈ (d.remove pool name).1.entries ↔
      e ∈ d.entries ∧ pool.get? name ≠ some e.1 := by
    intro e
    unfold MacroSet.remove
    cases pool.get? name with
    | none => simp
    | some n => simp [@eq_comm _ n]
  have hsorted : Sorted (d.remove pool name).1.entries := by
    unfold MacroSet.remove
    cases pool.get? name with
    | none => exact h.sorted
    | some n => exact h.sorted.filter _
  refine ⟨hsorted, fun e he => ?_, fun other value => ?_⟩
  · obtain ⟨other, value, -, hspells⟩ := h.spelled e ((hmem e).1 he).1
    exact ⟨other, value, he, hspells⟩
  · by_cases heq : other = name
    · subst heq
      rw [Finmap.lookup_erase]
      refine iff_of_false nofun ?_
      rintro ⟨e, he, hother, -⟩
      exact ((hmem e).1 he).2 hother
    · rw [Finmap.lookup_erase_ne heq, h.lookup_iff]
      constructor
      · rintro ⟨e, he, hother, hvalue⟩
        have hne : pool.get? name ≠ some e.1 := fun hname => heq (SymbolPool.eq_of_get? hother hname)
        exact ⟨e, (hmem e).2 ⟨he, hne⟩, hother, hvalue⟩
      · rintro ⟨e, he, hspells⟩
        exact ⟨e, ((hmem e).1 he).1, hspells⟩

/-- All values of another map are set. -/
lemma merge (h : Represents pool d m) (h' : Represents pool other m') :
    Represents pool (d.merge other) (m' ∪ m) := by
  obtain ⟨hsorted, hmem⟩ := mem_merge_iff h.sorted h'.sorted
  refine ⟨hsorted, fun e he => ?_, fun name value => ?_⟩
  · rcases (hmem e).1 he with hnew | ⟨hold, -⟩
    · obtain ⟨name, value, -, hspells⟩ := h'.spelled e hnew
      exact ⟨name, value, he, hspells⟩
    · obtain ⟨name, value, -, hspells⟩ := h.spelled e hold
      exact ⟨name, value, he, hspells⟩
  · rw [← Option.mem_def, Finmap.mem_lookup_union, Option.mem_def, Option.mem_def, h'.lookup_iff,
      h.lookup_iff]
    constructor
    · rintro (⟨e, he, hspells⟩ | ⟨hnew, e, he, hname, hvalue⟩)
      · exact ⟨e, (hmem e).2 (.inl he), hspells⟩
      · refine ⟨e, (hmem e).2 (.inr ⟨he, fun o ho hkey => hnew ?_⟩), hname, hvalue⟩
        obtain ⟨name', value', hspells⟩ := h'.spelled o ho
        have hsame : name = name' := SymbolPool.eq_of_get? hname (hkey ▸ hspells.2.1)
        exact Finmap.mem_iff.2 ⟨value', hsame ▸ (h'.lookup_iff _ _).2 ⟨o, hspells⟩⟩
    · rintro ⟨e, he, hname, hvalue⟩
      rcases (hmem e).1 he with hnew | ⟨hold, hother⟩
      · exact .inl ⟨e, hnew, hname, hvalue⟩
      · refine .inr ⟨fun hin => ?_, e, hold, hname, hvalue⟩
        obtain ⟨v', hlookup⟩ := Finmap.mem_iff.1 hin
        obtain ⟨o, ho, hname', -⟩ := (h'.lookup_iff _ _).1 hlookup
        exact hother o ho (Option.some.inj (hname.symm.trans hname'))

/-! ## Lines -/

/-- If every value can be read from a line, then the lines of a set are read as the values of its
map. -/
lemma exists_mem_lines_iff (h : Represents pool d m) (hm : m.Readable) :
    (∃ line ∈ d.lines pool, parseDefineLine line = some (name, value)) ↔
      m.lookup name = some value := by
  constructor
  · rintro ⟨line, hline, hparsed⟩
    obtain ⟨name', value', hlookup, rfl⟩ := h.mem_lines_iff.1 hline
    obtain ⟨source, hsource⟩ := hm name' value' hlookup
    rw [parseDefineLine_defineLine hsource, Option.some.injEq, Prod.mk.injEq] at hparsed
    obtain ⟨rfl, rfl⟩ := hparsed
    exact hlookup
  · intro hlookup
    obtain ⟨source, hsource⟩ := hm name value hlookup
    exact ⟨_, h.mem_lines_iff.2 ⟨name, value, hlookup, rfl⟩, parseDefineLine_defineLine hsource⟩

/-- The lines of a set define what its map defines. -/
lemma ofLines_lines_eq (h : Represents pool d m) (hm : m.Readable) :
    MacroMap.ofLines (d.lines pool) = m := by
  refine Finmap.ext_lookup fun name => Option.ext fun value => ?_
  rw [MacroMap.lookup_ofLines_iff, h.exists_mem_lines_iff hm]
  intro line hline line' hline' name v v' hparsed hparsed'
  have hv := (h.exists_mem_lines_iff hm).1 ⟨line, hline, hparsed⟩
  have hv' := (h.exists_mem_lines_iff hm).1 ⟨line', hline', hparsed'⟩
  exact Option.some.inj (hv.symm.trans hv')

end Represents

/-- Lines with texts that were all met leave the pool as it is. -/
lemma pool_ofLines {pool : SymbolPool} {lines : List String}
    (h : ∀ line ∈ lines, ∀ name value, parseDefineLine line = some (name, value) →
      (∃ s, pool.get? name = some s) ∧ ∃ s, pool.get? value = some s) :
    (ofLines pool lines).1 = pool := by
  induction lines using List.reverseRecOn with
  | nil => rfl
  | append_singleton lines line ih =>
    have hinit := ih fun a ha => h a (List.mem_append_left _ ha)
    have hlast := h line (List.mem_append_right _ (List.mem_singleton_self line))
    have hstep : (ofLines pool (lines ++ [line])).1 =
        (pushLine (ofLines pool lines).1 (ofLines pool lines).2 line).1 :=
      congrArg Prod.fst (List.foldl_concat ..)
    rw [hstep, hinit, pushLine]
    cases hparsed : parseDefineLine line with
    | none => rfl
    | some pair =>
      obtain ⟨⟨s, hname⟩, s', hvalue⟩ := hlast pair.1 pair.2 hparsed
      change ((pool.insert pair.1).insert pair.2) = pool
      rw [SymbolPool.insert_of_get? hname, SymbolPool.insert_of_get? hvalue]

/-- **A set is read back from its lines.** -/
lemma Represents.ofLines_lines {pool : SymbolPool} {d : MacroSet} {m : MacroMap}
    (h : Represents pool d m) (hm : m.Readable) :
    MacroSet.ofLines pool (d.lines pool) = (pool, d) := by
  have hpool : (MacroSet.ofLines pool (d.lines pool)).1 = pool := by
    refine pool_ofLines fun line hline name value hparsed => ?_
    have hlookup := (h.exists_mem_lines_iff hm).1 ⟨line, hline, hparsed⟩
    obtain ⟨e, -, hname, hvalue⟩ := (h.lookup_iff name value).1 hlookup
    exact ⟨⟨e.1, hname⟩, e.2, hvalue⟩
  have hread := (Represents.ofLines pool (d.lines pool)).2
  rw [hpool] at hread
  exact Prod.ext hpool ((hread.eq_iff h).2 (h.ofLines_lines_eq hm))

end MacroSet

/-! ## Several sets over one pool -/

/-- Sets of definitions over one pool, numbered. -/
structure MacroDesk where
  pool : SymbolPool
  sets : Nat → MacroSet := fun _ => .empty

/-- What a set is told by its caller: its values, and whether they all came from lines. -/
structure Definitions where
  values : MacroMap := ∅
  fromLines : Bool := true

namespace MacroDesk

/-- What can be done with the sets, or with the pool behind their back. -/
inductive Call where
  | meet (text : String)
  | set (i : Nat) (name value : String)
  | pushLine (i : Nat) (line : String)
  | remove (i : Nat) (name : String)
  | merge (i j : Nat)
  | copy (i j : Nat)
  | ofLines (i : Nat) (lines : List String)

/-- The desk with another pool and another set in a place. -/
def put (desk : MacroDesk) (i : Nat) (result : SymbolPool × MacroSet) : MacroDesk :=
  ⟨result.1, Function.update desk.sets i result.2⟩

/-- The desk after a call, and the answer of the call. -/
def call (desk : MacroDesk) : Call → MacroDesk × Option Bool
  | .meet text => ({ desk with pool := desk.pool.insert text }, none)
  | .set i name value => (desk.put i ((desk.sets i).set desk.pool name value), none)
  | .pushLine i line =>
    let (pool, d, pushed) := (desk.sets i).pushLine desk.pool line
    (desk.put i (pool, d), some pushed)
  | .remove i name =>
    let (d, removed) := (desk.sets i).remove desk.pool name
    (desk.put i (desk.pool, d), some removed)
  | .merge i j => (desk.put i (desk.pool, (desk.sets i).merge (desk.sets j)), none)
  | .copy i j => (desk.put i (desk.pool, desk.sets j), none)
  | .ofLines i lines => (desk.put i (MacroSet.ofLines desk.pool lines), none)

/-- The desk after calls, and their answers. -/
def run (desk : MacroDesk) : List Call → MacroDesk × List (Option Bool)
  | [] => (desk, [])
  | c :: calls =>
    let (desk, answer) := desk.call c
    let (desk, answers) := desk.run calls
    (desk, answer :: answers)

/-- What a call does to the maps, and its answer. -/
def callMaps (maps : Nat → Definitions) : Call → (Nat → Definitions) × Option Bool
  | .meet _ => (maps, none)
  | .set i name value =>
    (Function.update maps i ⟨(maps i).values.insert name value, false⟩, none)
  | .pushLine i line =>
    (Function.update maps i { maps i with values := (maps i).values.push line },
      some (parseDefineLine line).isSome)
  | .remove i name =>
    (Function.update maps i { maps i with values := (maps i).values.erase name },
      some (decide (name ∈ (maps i).values)))
  | .merge i j =>
    let values := (maps j).values ∪ (maps i).values
    (Function.update maps i ⟨values, (maps j).fromLines && (maps i).fromLines⟩, none)
  | .copy i j => (Function.update maps i (maps j), none)
  | .ofLines i lines => (Function.update maps i ⟨.ofLines lines, true⟩, none)

/-- The maps after calls, and the answers. -/
def runMaps (maps : Nat → Definitions) : List Call → (Nat → Definitions) × List (Option Bool)
  | [] => (maps, [])
  | c :: calls =>
    let (maps, answer) := callMaps maps c
    let (maps, answers) := runMaps maps calls
    (maps, answer :: answers)

/-- Every set represents its map, and what came from lines can be read from lines. -/
def Follows (desk : MacroDesk) (maps : Nat → Definitions) : Prop :=
  ∀ i, (desk.sets i).Represents desk.pool (maps i).values ∧
    ((maps i).fromLines = true → (maps i).values.Readable)

variable {desk : MacroDesk} {maps : Nat → Definitions}

/-- One set is replaced, and the pool grows. -/
lemma Follows.put (h : desk.Follows maps) (i : Nat) {result : SymbolPool × MacroSet}
    {definitions : Definitions} (hgrows : desk.pool.Grows result.1)
    (hresult : result.2.Represents result.1 definitions.values)
    (hread : definitions.fromLines = true → definitions.values.Readable) :
    (desk.put i result).Follows (Function.update maps i definitions) := by
  intro j
  by_cases hj : j = i
  · subst hj
    simp only [MacroDesk.put, Function.update_self]
    exact ⟨hresult, hread⟩
  · simp only [MacroDesk.put, Function.update_of_ne hj]
    exact ⟨(h j).1.mono hgrows, (h j).2⟩

/-- A call does to the sets what it does to their maps, and has the same answer. -/
lemma Follows.call (h : desk.Follows maps) (c : Call) :
    (desk.call c).1.Follows (callMaps maps c).1 ∧ (desk.call c).2 = (callMaps maps c).2 := by
  have hstays : desk.pool.Grows desk.pool := fun _ _ hs => hs
  cases c with
  | meet text => exact ⟨fun i => ⟨(h i).1.mono (desk.pool.grows_insert text), (h i).2⟩, rfl⟩
  | set i name value =>
    obtain ⟨hgrows, hset⟩ := (h i).1.set name value
    exact ⟨h.put i hgrows hset nofun, rfl⟩
  | pushLine i line =>
    obtain ⟨hgrows, hpushed, hanswer⟩ := (h i).1.pushLine line
    exact ⟨h.put i hgrows hpushed fun hlines => ((h i).2 hlines).push line, congrArg some hanswer⟩
  | remove i name =>
    obtain ⟨hremoved, hanswer⟩ := (h i).1.remove name
    exact ⟨h.put i hstays hremoved fun hlines => ((h i).2 hlines).erase name, congrArg some hanswer⟩
  | merge i j =>
    refine ⟨h.put i hstays ((h i).1.merge (h j).1) fun hlines => ?_, rfl⟩
    obtain ⟨hother, hown⟩ := Bool.and_eq_true_iff.1 hlines
    exact ((h j).2 hother).union ((h i).2 hown)
  | copy i j => exact ⟨h.put i hstays (h j).1 (h j).2, rfl⟩
  | ofLines i lines =>
    obtain ⟨hgrows, hread⟩ := MacroSet.Represents.ofLines desk.pool lines
    exact ⟨h.put i hgrows hread fun _ => .ofLines lines, rfl⟩

/-- Calls do to the sets what they do to their maps, and have the same answers. -/
lemma Follows.run (h : desk.Follows maps) (calls : List Call) :
    (desk.run calls).1.Follows (runMaps maps calls).1 ∧
      (desk.run calls).2 = (runMaps maps calls).2 := by
  induction calls generalizing desk maps with
  | nil => exact ⟨h, rfl⟩
  | cons c calls ih =>
    obtain ⟨hcall, hanswer⟩ := h.call c
    obtain ⟨hcalls, hanswers⟩ := ih hcall
    exact ⟨hcalls, congrArg₂ List.cons hanswer hanswers⟩

/-- What is seen of sets is what their maps say. -/
structure Agrees (desk : MacroDesk) (maps : Nat → Definitions) : Prop where
  /-- The entries stand in the strict order of their symbols. -/
  sorted : ∀ i, MacroSet.Sorted (desk.sets i).entries
  get?_eq : ∀ i name, (desk.sets i).get? desk.pool name = (maps i).values.lookup name
  contains_eq : ∀ i name, (desk.sets i).contains desk.pool name = decide (name ∈ (maps i).values)
  size_eq : ∀ i, (desk.sets i).size = (maps i).values.keys.card
  /-- Sets are equal exactly if their maps are. -/
  eq_iff : ∀ i j, desk.sets i = desk.sets j ↔ (maps i).values = (maps j).values
  /-- A set that came from lines is read back from its lines, and no text is new to the pool. -/
  ofLines_lines : ∀ i, (maps i).fromLines = true →
    MacroSet.ofLines desk.pool ((desk.sets i).lines desk.pool) = (desk.pool, desk.sets i)

/-- **Sets of definitions are finite maps.** Whatever texts a pool has met, after every sequence of calls
to any number of empty sets over it, the answers of the calls and all that is seen of the sets are those
of the maps. -/
theorem run_follows (pool : SymbolPool) (calls : List Call) :
    Agrees (run ⟨pool, fun _ => .empty⟩ calls).1 (runMaps (fun _ => {}) calls).1 ∧
      (run ⟨pool, fun _ => .empty⟩ calls).2 = (runMaps (fun _ => {}) calls).2 := by
  have hstart : Follows ⟨pool, fun _ => .empty⟩ fun _ => {} := fun _ => ⟨.empty pool, fun _ => .empty⟩
  obtain ⟨hfollows, hanswers⟩ := hstart.run calls
  refine ⟨?_, hanswers⟩
  exact {
    sorted := fun i => (hfollows i).1.sorted
    get?_eq := fun i => (hfollows i).1.get?_eq
    contains_eq := fun i => (hfollows i).1.contains_eq
    size_eq := fun i => (hfollows i).1.size_eq
    eq_iff := fun i j => (hfollows i).1.eq_iff (hfollows j).1
    ofLines_lines := fun i hlines => (hfollows i).1.ofLines_lines ((hfollows i).2 hlines) }

/-- A line wins over an older value, a merged set over both, and the order of the symbols is not that of
the names. -/
example : (run ⟨.empty, fun _ => .empty⟩
    [.meet "_PCF", .set 0 "_ESM" "1", .pushLine 1 "#define _PCF", .pushLine 1 " #define  _ESM 2 ",
      .merge 0 1, .remove 1 "_VSM"]).1.sets 0 = ⟨[(⟨0⟩, ⟨3⟩), (⟨1⟩, ⟨4⟩)]⟩ := by
  decide +kernel

end MacroDesk

end SceneShading
