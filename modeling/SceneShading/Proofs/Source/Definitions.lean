import Mathlib.Data.Finmap
import Mathlib.Tactic
import SceneShading.Proofs.Source.Process

/-!
# Definitions in a source

The built-in skeleton prints a version, the extensions, a default precision, the definitions and the
body, in this order and with nothing in between (`Source.process_eq`). The definitions are those of a
set, which the definition lines of the program were put into.

A set keeps pairs of symbols in the order of the symbols, and a symbol is the place at which a text was
first met. Nothing of this shows from outside: a set represents a finite map from names to values
(`MacroSet.Represents`), what is done with the set is done with the map, and what the set answers and
prints is read off the map. The set of definition lines represents what the lines define, where the last
value of a name stays (`MacroSet.Represents.ofLines`).
-/

namespace SceneShading

/-! ## Symbols -/

namespace SymbolPool

variable {pool pool' pool'' : SymbolPool} {text text' : String} {s : Symbol}

/-- The symbol of a text is its place in the pool. -/
lemma get?_eq_some_iff : pool.get? text = some s ↔ pool.texts[s.index]? = some text := by
  constructor
  · intro h
    obtain ⟨i, hi, rfl⟩ := Option.map_eq_some_iff.1 h
    obtain ⟨hlt, htext, -⟩ := List.findIdx?_eq_some_iff_getElem.1 hi
    rw [List.getElem?_eq_getElem hlt, beq_iff_eq.1 htext]
  · intro h
    cases hget : pool.get? text with
    | none => exact absurd (List.mem_of_getElem? h) (get?_eq_none_iff.1 hget)
    | some s' =>
      obtain ⟨i, hi, rfl⟩ := Option.map_eq_some_iff.1 hget
      obtain ⟨hlt, htext, -⟩ := List.findIdx?_eq_some_iff_getElem.1 hi
      obtain ⟨hlt', htext'⟩ := List.getElem?_eq_some_iff.1 h
      have hplace : i = s.index :=
        (List.Nodup.getElem_inj_iff pool.texts_nodup).1 ((beq_iff_eq.1 htext).trans htext'.symm)
      rw [hplace]

/-- A symbol stands for the text that it was given. -/
lemma resolve_of_get? (h : pool.get? text = some s) : pool.resolve s = text := by
  rw [resolve, resolve?, get?_eq_some_iff.1 h, Option.getD_some]

/-- Symbols stay when more texts are met. -/
lemma get?_insert (h : pool.get? text = some s) (other : String) :
    (pool.insert other).get? text = some s := by
  rw [get?_eq_some_iff] at *
  unfold insert
  split
  · exact h
  · rw [List.getElem?_append_left (List.getElem?_eq_some_iff.1 h).1, h]

/-- A text that was met has a symbol. -/
lemma get?_intern (pool : SymbolPool) (text : String) :
    (pool.intern text).1.get? text = some (pool.intern text).2 := by
  unfold intern
  cases hget : (pool.insert text).get? text with
  | none => exact absurd (mem_insert.2 (.inr rfl)) (get?_eq_none_iff.1 hget)
  | some s => simp only [hget, Option.getD_some]

/-- Every text that has a symbol keeps it. -/
def Grows (pool pool' : SymbolPool) : Prop :=
  ∀ text s, pool.get? text = some s → pool'.get? text = some s

lemma Grows.trans (h : pool.Grows pool') (h' : pool'.Grows pool'') : pool.Grows pool'' :=
  fun text s hs => h' text s (h text s hs)

lemma grows_insert (pool : SymbolPool) (text : String) : pool.Grows (pool.insert text) :=
  fun _ _ hs => get?_insert hs text

/-- Texts with the same symbol are the same. -/
lemma eq_of_get? (h : pool.get? text = some s) (h' : pool.get? text' = some s) : text = text' :=
  (resolve_of_get? h).symm.trans (resolve_of_get? h')

/-- A text that was met leaves the pool as it is. -/
lemma insert_of_get? (h : pool.get? text = some s) : pool.insert text = pool :=
  dif_pos (List.mem_of_getElem? (get?_eq_some_iff.1 h))

end SymbolPool

/-! ## Maps -/

/-- The values of finitely many names. -/
abbrev MacroMap := Finmap fun _ : String => String

namespace MacroMap

variable {m : MacroMap} {lines : List String} {name value : String}

/-- The map with what a line defines. -/
def push (m : MacroMap) (line : String) : MacroMap :=
  match parseDefineLine line with
  | some (name, value) => m.insert name value
  | none => m

/-- What lines define, read in their order: the last value of a name stays. -/
def ofLines (lines : List String) : MacroMap := lines.foldl push ∅

lemma ofLines_concat (lines : List String) (line : String) :
    ofLines (lines ++ [line]) = (ofLines lines).push line := List.foldl_concat ..

/-- What is set has the new value, all else has its old one. -/
lemma lookup_insert_eq_some_iff {other v : String} : (m.insert name value).lookup other = some v ↔
    other = name ∧ v = value ∨ other ≠ name ∧ m.lookup other = some v := by
  by_cases h : other = name
  · subst h
    rw [Finmap.lookup_insert, Option.some.injEq]
    simp [eq_comm]
  · rw [Finmap.lookup_insert_of_ne _ h]
    simp [h]

/-- What lines define, one of them defines. -/
lemma exists_line_of_lookup (h : (ofLines lines).lookup name = some value) :
    ∃ line ∈ lines, parseDefineLine line = some (name, value) := by
  induction lines using List.reverseRecOn with
  | nil =>
    rw [ofLines, List.foldl_nil, Finmap.lookup_empty] at h
    cases h
  | append_singleton lines line ih =>
    rw [ofLines_concat, push] at h
    split at h
    next other v hparsed =>
      rcases lookup_insert_eq_some_iff.1 h with ⟨rfl, rfl⟩ | ⟨-, hold⟩
      · exact ⟨line, List.mem_append_right _ (List.mem_singleton_self line), hparsed⟩
      · obtain ⟨earlier, hearlier, hparsed'⟩ := ih hold
        exact ⟨earlier, List.mem_append_left _ hearlier, hparsed'⟩
    next =>
      obtain ⟨earlier, hearlier, hparsed'⟩ := ih h
      exact ⟨earlier, List.mem_append_left _ hearlier, hparsed'⟩

/-- A name is defined exactly if a line defines it. -/
lemma mem_ofLines_iff :
    name ∈ ofLines lines ↔ ∃ line ∈ lines, ∃ value, parseDefineLine line = some (name, value) := by
  constructor
  · intro h
    obtain ⟨value, hlookup⟩ := Finmap.mem_iff.1 h
    obtain ⟨line, hline, hparsed⟩ := exists_line_of_lookup hlookup
    exact ⟨line, hline, value, hparsed⟩
  · rintro ⟨line, hline, value, hparsed⟩
    induction lines using List.reverseRecOn with
    | nil => cases hline
    | append_singleton lines last ih =>
      rw [ofLines_concat, push]
      rcases List.mem_append.1 hline with hearlier | hlast
      · split
        · exact Finmap.mem_insert.2 (.inr (ih hearlier))
        · exact ih hearlier
      · rw [← List.mem_singleton.1 hlast, hparsed]
        exact Finmap.mem_insert.2 (.inl rfl)

end MacroMap

namespace MacroSet

/-! ## Entries -/

section Entries

variable {entries : List (Symbol × Symbol)} {n v : Symbol} {e e' : Symbol × Symbol}

/-- What is set is there. -/
lemma mem_setEntry (n v : Symbol) (entries : List (Symbol × Symbol)) :
    (n, v) ∈ setEntry n v entries := by
  induction entries with
  | nil => exact List.mem_cons_self
  | cons e r ih =>
    rw [setEntry]
    split
    · exact List.mem_cons_self
    · split
      · exact List.mem_cons_self
      · exact List.mem_cons_of_mem _ ih

/-- The values of other names stay. -/
lemma mem_setEntry_of_ne (he : e ∈ entries) (hne : e.1 ≠ n) : e ∈ setEntry n v entries := by
  induction entries with
  | nil => cases he
  | cons first r ih =>
    rw [setEntry]
    split
    · exact List.mem_cons_of_mem _ he
    · split
      next heq =>
        rcases List.mem_cons.1 he with rfl | he
        · exact absurd heq.symm hne
        · exact List.mem_cons_of_mem _ he
      next =>
        rcases List.mem_cons.1 he with rfl | he
        · exact List.mem_cons_self
        · exact List.mem_cons_of_mem _ (ih he)

/-- Nothing else comes in. -/
lemma eq_or_mem_of_mem_setEntry (he : e ∈ setEntry n v entries) : e = (n, v) ∨ e ∈ entries := by
  induction entries with
  | nil => exact .inl (List.mem_singleton.1 he)
  | cons first r ih =>
    rw [setEntry] at he
    split at he
    · exact List.mem_cons.1 he
    · split at he
      · exact (List.mem_cons.1 he).imp_right (List.mem_cons_of_mem _)
      · rcases List.mem_cons.1 he with rfl | he
        · exact .inr List.mem_cons_self
        · exact (ih he).imp_right (List.mem_cons_of_mem _)

/-- Every entry comes before all that have names with greater symbols. -/
def Sorted (entries : List (Symbol × Symbol)) : Prop :=
  entries.Pairwise fun a b => a.1.index < b.1.index

/-- Setting a value keeps the order. -/
lemma Sorted.setEntry (h : Sorted entries) (n v : Symbol) : Sorted (setEntry n v entries) := by
  induction entries with
  | nil => exact List.pairwise_singleton _ _
  | cons first r ih =>
    obtain ⟨hfirst, hr⟩ := List.pairwise_cons.1 h
    rw [MacroSet.setEntry]
    split
    next hlt =>
      refine List.pairwise_cons.2 ⟨List.forall_mem_cons.2 ⟨hlt, fun e he => ?_⟩, h⟩
      exact hlt.trans (hfirst e he)
    next hle =>
      split
      next heq => exact List.pairwise_cons.2 ⟨fun e he => heq ▸ hfirst e he, hr⟩
      next hne =>
        refine List.pairwise_cons.2 ⟨fun e he => ?_, ih hr⟩
        rcases eq_or_mem_of_mem_setEntry he with rfl | he
        · exact lt_of_le_of_ne (not_lt.1 hle) fun heq => hne (congrArg Symbol.mk heq.symm)
        · exact hfirst e he

/-- A name has one entry. -/
lemma Sorted.eq_of_key (h : Sorted entries) (he : e ∈ entries) (he' : e' ∈ entries)
    (hkey : e.1 = e'.1) : e = e' := by
  induction entries with
  | nil => cases he
  | cons first r ih =>
    obtain ⟨hfirst, hr⟩ := List.pairwise_cons.1 h
    rcases List.mem_cons.1 he with rfl | hin <;> rcases List.mem_cons.1 he' with rfl | hin'
    · rfl
    · exact absurd (congrArg Symbol.index hkey) (hfirst e' hin').ne
    · exact absurd (congrArg Symbol.index hkey) (hfirst e hin).ne'
    · exact ih hr hin hin'

/-- What is set replaces the entry of its name. -/
lemma mem_setEntry_iff (h : Sorted entries) :
    e ∈ setEntry n v entries ↔ e = (n, v) ∨ e ∈ entries ∧ e.1 ≠ n := by
  constructor
  · intro he
    by_cases hkey : e.1 = n
    · exact .inl ((h.setEntry n v).eq_of_key he (mem_setEntry n v entries) hkey)
    · exact (eq_or_mem_of_mem_setEntry he).imp_right fun hold => ⟨hold, hkey⟩
  · rintro (rfl | ⟨he, hne⟩)
    · exact mem_setEntry n v entries
    · exact mem_setEntry_of_ne he hne

end Entries

/-! ## The map of a set -/

/-- The pair is in the set under the symbols of its texts. -/
def Spells (pool : SymbolPool) (d : MacroSet) (pair : String × String) (e : Symbol × Symbol) : Prop :=
  e ∈ d.entries ∧ pool.get? pair.1 = some e.1 ∧ pool.get? pair.2 = some e.2

/-- The set represents the map: its entries are sorted, each of them is the entry of two texts, and the
pairs of texts that have an entry are those of the map. -/
structure Represents (pool : SymbolPool) (d : MacroSet) (m : MacroMap) : Prop where
  sorted : Sorted d.entries
  spelled : ∀ e ∈ d.entries, ∃ name value, d.Spells pool (name, value) e
  lookup_iff : ∀ name value, m.lookup name = some value ↔ ∃ e, d.Spells pool (name, value) e

namespace Represents

variable {pool pool' : SymbolPool} {d : MacroSet} {m : MacroMap} {n v : Symbol}
  {name value line : String}

lemma empty (pool : SymbolPool) : Represents pool MacroSet.empty ∅ where
  sorted := List.Pairwise.nil
  spelled e he := absurd he List.not_mem_nil
  lookup_iff name value := by simp [Spells, MacroSet.empty]

/-- What a set represents stays when the pool grows. -/
lemma mono (h : Represents pool d m) (hgrows : pool.Grows pool') : Represents pool' d m where
  sorted := h.sorted
  spelled e he := by
    obtain ⟨name, value, -, hname, hvalue⟩ := h.spelled e he
    exact ⟨name, value, he, hgrows _ _ hname, hgrows _ _ hvalue⟩
  lookup_iff name value := by
    rw [h.lookup_iff]
    constructor
    · rintro ⟨e, he, hname, hvalue⟩
      exact ⟨e, he, hgrows _ _ hname, hgrows _ _ hvalue⟩
    · rintro ⟨e, he, hname, hvalue⟩
      obtain ⟨name', value', -, hname', hvalue'⟩ := h.spelled e he
      obtain rfl := SymbolPool.eq_of_get? hname (hgrows _ _ hname')
      obtain rfl := SymbolPool.eq_of_get? hvalue (hgrows _ _ hvalue')
      exact ⟨e, he, hname', hvalue'⟩

/-- A name is defined if the map has it. -/
lemma contains_iff (h : Represents pool d m) (name : String) :
    d.contains pool name = true ↔ name ∈ m := by
  rw [contains, Option.any_eq_true, Finmap.mem_iff]
  constructor
  · rintro ⟨n, hn, hcontains⟩
    obtain ⟨e, he, hkey⟩ := List.any_eq_true.1 hcontains
    obtain ⟨name', value, hspells⟩ := h.spelled e he
    rw [← of_decide_eq_true hkey] at hn
    obtain rfl := SymbolPool.eq_of_get? hn hspells.2.1
    exact ⟨value, (h.lookup_iff _ _).2 ⟨e, hspells⟩⟩
  · rintro ⟨value, hlookup⟩
    obtain ⟨e, he, hname, -⟩ := (h.lookup_iff _ _).1 hlookup
    exact ⟨e.1, hname, List.any_eq_true.2 ⟨e, he, decide_eq_true rfl⟩⟩

/-- The lines of a set are those of the values of its map. -/
lemma mem_lines_iff (h : Represents pool d m) :
    line ∈ d.lines pool ↔ ∃ name value, m.lookup name = some value ∧ line = defineLine name value := by
  rw [lines, (Text.sort_perm _).mem_iff, List.mem_map]
  constructor
  · rintro ⟨e, he, rfl⟩
    obtain ⟨name, value, hspells⟩ := h.spelled e he
    refine ⟨name, value, (h.lookup_iff _ _).2 ⟨e, hspells⟩, ?_⟩
    rw [SymbolPool.resolve_of_get? hspells.2.1, SymbolPool.resolve_of_get? hspells.2.2]
  · rintro ⟨name, value, hlookup, rfl⟩
    obtain ⟨e, he, hname, hvalue⟩ := (h.lookup_iff _ _).1 hlookup
    exact ⟨e, he, by rw [SymbolPool.resolve_of_get? hname, SymbolPool.resolve_of_get? hvalue]⟩

/-- A value is set in the map. -/
lemma setSymbol (h : Represents pool d m) (hn : pool.get? name = some n)
    (hv : pool.get? value = some v) : Represents pool (d.setSymbol n v) (m.insert name value) := by
  refine ⟨h.sorted.setEntry n v, fun e he => ?_, fun other v' => ?_⟩
  · rcases (mem_setEntry_iff h.sorted).1 he with rfl | ⟨hold, -⟩
    · exact ⟨name, value, he, hn, hv⟩
    · obtain ⟨other, v', -, hspells⟩ := h.spelled e hold
      exact ⟨other, v', he, hspells⟩
  · rw [MacroMap.lookup_insert_eq_some_iff, h.lookup_iff]
    constructor
    · rintro (⟨rfl, rfl⟩ | ⟨hne, e, he, hother, hvalue⟩)
      · exact ⟨(n, v), mem_setEntry n v _, hn, hv⟩
      · refine ⟨e, mem_setEntry_of_ne he fun hkey => hne ?_, hother, hvalue⟩
        exact SymbolPool.eq_of_get? hother (hkey ▸ hn)
    · rintro ⟨e, he, hother, hvalue⟩
      rcases (mem_setEntry_iff h.sorted).1 he with rfl | ⟨hold, hne⟩
      · exact .inl ⟨SymbolPool.eq_of_get? hother hn, SymbolPool.eq_of_get? hvalue hv⟩
      · refine .inr ⟨fun heq => hne ?_, e, hold, hother, hvalue⟩
        rw [heq, hn] at hother
        exact (Option.some.inj hother).symm

/-- A value is set by its texts, which the pool meets. -/
lemma set (h : Represents pool d m) (name value : String) :
    pool.Grows (d.set pool name value).1 ∧
      Represents (d.set pool name value).1 (d.set pool name value).2 (m.insert name value) := by
  have hgrows : pool.Grows (d.set pool name value).1 :=
    (pool.grows_insert name).trans ((pool.insert name).grows_insert value)
  exact ⟨hgrows, (h.mono hgrows).setSymbol
    (SymbolPool.get?_insert (SymbolPool.get?_intern pool name) value) (SymbolPool.get?_intern _ value)⟩

/-- A line that defines something sets its value, and any other line nothing. -/
lemma pushLine (h : Represents pool d m) (line : String) :
    pool.Grows (d.pushLine pool line).1 ∧
      Represents (d.pushLine pool line).1 (d.pushLine pool line).2.1 (m.push line) ∧
        (d.pushLine pool line).2.2 = (parseDefineLine line).isSome := by
  unfold MacroSet.pushLine MacroMap.push
  cases parseDefineLine line with
  | none => exact ⟨fun _ _ hs => hs, h, rfl⟩
  | some pair =>
    obtain ⟨hgrows, hset⟩ := h.set pair.1 pair.2
    exact ⟨hgrows, hset, rfl⟩

/-- The set of lines represents what the lines define. -/
lemma ofLines (pool : SymbolPool) (lines : List String) :
    pool.Grows (MacroSet.ofLines pool lines).1 ∧
      Represents (MacroSet.ofLines pool lines).1 (MacroSet.ofLines pool lines).2
        (MacroMap.ofLines lines) := by
  induction lines using List.reverseRecOn with
  | nil => exact ⟨fun _ _ hs => hs, .empty pool⟩
  | append_singleton lines line ih =>
    obtain ⟨hgrows, hpushed, -⟩ := ih.2.pushLine line
    rw [MacroMap.ofLines_concat, MacroSet.ofLines, List.foldl_concat]
    exact ⟨ih.1.trans hgrows, hpushed⟩

end Represents

end MacroSet

end SceneShading
