import Mathlib.Tactic
import SceneShading.Proofs.Source.Definitions

/-!
# Reading files within files

Resolving the includes of a body reads it, and the files that it includes, in depth-first order, with
no bound on the depth (`Source.Reading`). The bound that `Source.expand` has is never met, since every
file that is opened is one of the library that was not met before (`Source.exists_reads_expand`).

From a reading it is seen what was asked for, in which order, what was opened and what was written.
Files may include one another in circles, so that what is reached is not a matter of depth: a reading
meets whatever the lines that it has read ask for (`Source.Reading.closed`), and nothing else
(`Source.Reading.sound`).
-/

namespace SceneShading

namespace Text

variable {cut : Char → Bool} {s piece : List Char}

/-- The pieces have no cuts. -/
lemma not_cut_of_mem_split (h : piece ∈ split cut s) : ∀ c ∈ piece, ¬cut c = true := by
  induction s generalizing piece with
  | nil =>
    rw [split_nil, List.mem_singleton] at h
    subst h
    exact List.forall_mem_nil _
  | cons d s ih =>
    rw [split] at h
    split at h
    · rcases List.mem_cons.1 h with rfl | h
      · exact List.forall_mem_nil _
      · exact ih h
    next hd =>
      cases hs : split cut s with
      | nil => exact absurd hs (split_ne_nil cut s)
      | cons p ps =>
        rw [hs] at h ih
        rcases List.mem_cons.1 h with rfl | h
        · exact List.forall_mem_cons.2 ⟨hd, ih List.mem_cons_self⟩
        · exact ih (List.mem_cons_of_mem _ h)

/-- A line has no line feed. -/
lemma not_mem_of_mem_linesOf {line : List Char} (h : line ∈ linesOf s) : '\n' ∉ line := by
  obtain ⟨piece, hpiece, hline⟩ := exists_piece_of_line h
  have hfree : '\n' ∉ piece := fun hmem => not_cut_of_mem_split hpiece '\n' hmem rfl
  rcases hline with rfl | rfl
  · exact hfree
  · exact fun hmem => hfree (mem_of_mem_dropReturn hmem)

/-- Lines with a line feed each are the lines of their text, but for carriage returns at their ends. -/
lemma linesOf_flatMap {lines : List (List Char)} (h : ∀ line ∈ lines, '\n' ∉ line) :
    linesOf (lines.flatMap (· ++ ['\n'])) = lines.map dropReturn := by
  induction lines with
  | nil => rfl
  | cons line lines ih =>
    obtain ⟨hline, hrest⟩ := List.forall_mem_cons.1 h
    rw [List.flatMap_cons, List.append_assoc, List.singleton_append, linesOf_append, split_line hline,
      ih hrest]
    rfl

end Text

namespace Source

open Text

/-! ## Include lines -/

/-- A quoted name is missing exactly if there is no quote. -/
lemma quoted_split_eq_nil_iff {s : List Char} :
    Include.quoted (split (· == '"') s) = [] ↔ '"' ∉ s := by
  constructor
  · intro h hmem
    obtain ⟨a, b, rfl⟩ := List.append_of_mem hmem
    rw [split_append (by rfl)] at h
    obtain ⟨p, ps, hp⟩ := List.exists_cons_of_ne_nil (split_ne_nil (· == '"') a)
    obtain ⟨q, qs, hq⟩ := List.exists_cons_of_ne_nil (split_ne_nil (· == '"') b)
    rw [hp, hq] at h
    cases ps <;> cases h
  · intro h
    have hpiece : split (· == '"') s = [s] := by
      refine split_of_not_cut fun c hc heq => h ?_
      rwa [beq_iff_eq.1 heq] at hc
    rw [hpiece]
    rfl

/-- A line stands for a file if it has the mark and a quote behind it. -/
lemma isSome_ofLine?_iff {line : List Char} :
    (Include.ofLine? line).isSome = true ↔ Include.pragma <+: trimStart line ∧
      '"' ∈ (trimStart line).drop Include.pragma.length := by
  have hquote : Include.quoted (split (· == '"') ((trimStart line).drop Include.pragma.length)) = [] ↔
      '"' ∉ (trimStart line).drop Include.pragma.length := quoted_split_eq_nil_iff
  unfold Include.ofLine?
  simp only
  split
  next hmark =>
    rw [List.isPrefixOf_iff_prefix] at hmark
    split
    next file guards h =>
      rw [h] at hquote
      have hmem := not_not.1 fun hfree => List.cons_ne_nil _ _ (hquote.2 hfree)
      simp only [Option.isSome_some, hmark, hmem, and_self]
    next h =>
      have hfree := hquote.1 h
      simp only [Option.isSome_none, Bool.false_eq_true, hfree, and_false]
  next hmark =>
    rw [List.isPrefixOf_iff_prefix] at hmark
    simp only [Option.isSome_none, Bool.false_eq_true, hmark, false_and]

/-- A carriage return at the end makes no include line. -/
lemma ofLine?_dropReturn_eq_none {line : List Char} (h : Include.ofLine? line = none) :
    Include.ofLine? (dropReturn line) = none := by
  unfold dropReturn
  split
  next hlast =>
    have hline : line = line.dropLast ++ ['\r'] := by
      have hne : line ≠ [] := by
        rintro rfl
        cases hlast
      rw [List.getLast?_eq_some_getLast hne, Option.some.injEq] at hlast
      rw [← hlast, List.dropLast_concat_getLast hne]
    generalize line.dropLast = start at hline
    rw [← Option.not_isSome_iff_eq_none] at h ⊢
    refine fun hsome => h ?_
    obtain ⟨hmark, hquote⟩ := isSome_ofLine?_iff.1 hsome
    have htrim : trimStart line = trimStart start ++ ['\r'] := by
      have hne : ¬(start.dropWhile isBlank).isEmpty = true := by
        intro hempty
        rw [trimStart, List.isEmpty_iff.1 hempty] at hmark
        exact absurd (List.prefix_nil.1 hmark) (by decide)
      rw [trimStart, hline, List.dropWhile_append, if_neg hne, trimStart]
    rw [isSome_ofLine?_iff, htrim]
    refine ⟨hmark.trans (List.prefix_append _ _), ?_⟩
    rw [List.drop_append_of_le_length hmark.length_le]
    exact List.mem_append_left _ hquote
  next => exact h

/-- A definition line of the list defines one of the guards, if there are guards. -/
def Include.TakesPart (defines : List String) (i : Include) : Prop :=
  i.guards = [] ∨
    ∃ guard ∈ i.guards, ∃ line ∈ defines, ∃ value, parseDefineLine line = some (guard, value)

/-! ## Readings -/

/-- What happens when a line is read. -/
inductive ReadingEvent where
  /-- The line is written as it is. -/
  | kept (line : List Char)
  /-- The line asks for a file. -/
  | named (file : String)
  /-- The lines of the file are read next. -/
  | opened (file : String)

namespace ReadingEvent

/-- The line that is written. -/
def kept? : ReadingEvent → Option (List Char)
  | kept line => some line
  | _ => none

/-- The file that is asked for. -/
def named? : ReadingEvent → Option String
  | named file => some file
  | _ => none

/-- The file that is opened. -/
def opened? : ReadingEvent → Option String
  | opened file => some file
  | _ => none

end ReadingEvent

section Reading

variable (lib : Library) (defines : List String)

/-- Lines are read one after another, and the lines of a file that they ask for in place of the line
that asks first. The files that were met before and the files met in the end stand around. -/
inductive Reading : List String → List (List Char) → List ReadingEvent → List String → Prop where
  | done {met : List String} : Reading met [] [] met
  | keep {met met' : List String} {line : List Char} {lines : List (List Char)}
      {events : List ReadingEvent} (hline : Include.ofLine? line = none)
      (hrest : Reading met lines events met') :
      Reading met (line :: lines) (.kept line :: events) met'
  | skip {met met' : List String} {line : List Char} {lines : List (List Char)}
      {events : List ReadingEvent} {i : Include} (hline : Include.ofLine? line = some i)
      (hguards : ¬i.TakesPart defines) (hrest : Reading met lines events met') :
      Reading met (line :: lines) events met'
  | again {met met' : List String} {line : List Char} {lines : List (List Char)}
      {events : List ReadingEvent} {i : Include} (hline : Include.ofLine? line = some i)
      (hguards : i.TakesPart defines) (hmet : i.file ∈ met) (hrest : Reading met lines events met') :
      Reading met (line :: lines) (.named i.file :: events) met'
  | absent {met met' : List String} {line : List Char} {lines : List (List Char)}
      {events : List ReadingEvent} {i : Include} (hline : Include.ofLine? line = some i)
      (hguards : i.TakesPart defines) (hmet : i.file ∉ met) (htext : lib.text? i.file = none)
      (hrest : Reading (met ++ [i.file]) lines events met') :
      Reading met (line :: lines) (.named i.file :: events) met'
  | opens {met met' met'' : List String} {line : List Char} {lines : List (List Char)}
      {inner events : List ReadingEvent} {i : Include} {text : String}
      (hline : Include.ofLine? line = some i) (hguards : i.TakesPart defines) (hmet : i.file ∉ met)
      (htext : lib.text? i.file = some text)
      (hfile : Reading (met ++ [i.file]) (linesOf text.toList) inner met')
      (hrest : Reading met' lines events met'') :
      Reading met (line :: lines) (.named i.file :: .opened i.file :: (inner ++ events)) met''

/-- A line that takes part asks for the file. -/
def AskedBy (lines : List (List Char)) (file : String) : Prop :=
  ∃ line ∈ lines, ∃ i, Include.ofLine? line = some i ∧ i.TakesPart defines ∧ i.file = file

/-- The file is asked for by the lines, or by a file that is. -/
inductive Reached (lines : List (List Char)) : String → Prop where
  | lines {file : String} (h : AskedBy defines lines file) : Reached lines file
  | file {file other text : String} (h : Reached lines file) (htext : lib.text? file = some text)
      (hother : AskedBy defines (linesOf text.toList) other) : Reached lines other

end Reading

variable {lib : Library} {defines : List String} {met met' : List String} {line : List Char}
  {lines lines' : List (List Char)} {events : List ReadingEvent} {file : String}

lemma askedBy_cons : AskedBy defines (line :: lines) file ↔
    (∃ i, Include.ofLine? line = some i ∧ i.TakesPart defines ∧ i.file = file) ∨
      AskedBy defines lines file := List.exists_mem_cons_iff _ _ _

lemma askedBy_head {i : Include} (hline : Include.ofLine? line = some i)
    (hguards : i.TakesPart defines) : AskedBy defines (line :: lines) i.file :=
  ⟨line, List.mem_cons_self, i, hline, hguards, rfl⟩

/-- More lines reach more files. -/
lemma Reached.mono (hsub : lines ⊆ lines') (h : Reached lib defines lines file) :
    Reached lib defines lines' file := by
  induction h with
  | lines hasked =>
    obtain ⟨line, hline, hi⟩ := hasked
    exact .lines ⟨line, hsub hline, hi⟩
  | file _ htext hother ih => exact .file ih htext hother

/-- What a reached file reaches is reached. -/
lemma Reached.of_file {other text : String} (h : Reached lib defines (linesOf text.toList) file)
    (hother : Reached lib defines lines other) (htext : lib.text? other = some text) :
    Reached lib defines lines file := by
  induction h with
  | lines hasked => exact .file hother htext hasked
  | file _ htext hasked ih => exact .file ih htext hasked

/-- The files met after one is asked for. -/
def meet (met : List String) (file : String) : List String :=
  if file ∈ met then met else met ++ [file]

namespace Reading

/-- No file that was met is forgotten. -/
lemma subset (h : Reading lib defines met lines events met') : met ⊆ met' := by
  induction h with
  | done => exact List.Subset.refl _
  | keep _ _ ih => exact ih
  | skip _ _ _ ih => exact ih
  | again _ _ _ _ ih => exact ih
  | absent _ _ _ _ _ ih => exact List.Subset.trans (List.subset_append_left _ _) ih
  | opens _ _ _ _ _ _ ihfile ih =>
    exact List.Subset.trans (List.Subset.trans (List.subset_append_left _ _) ihfile) ih

/-- A file that the lines ask for is met. -/
lemma mem_of_askedBy (h : Reading lib defines met lines events met')
    (hfile : AskedBy defines lines file) : file ∈ met' := by
  induction h with
  | done =>
    obtain ⟨line, hmem, -⟩ := hfile
    cases hmem
  | keep hline hrest ih =>
    rcases askedBy_cons.1 hfile with ⟨i, hi, -⟩ | hfile
    · rw [hline] at hi
      cases hi
    · exact ih hfile
  | skip hline hguards hrest ih =>
    rcases askedBy_cons.1 hfile with ⟨i, hi, htakes, -⟩ | hfile
    · rw [hline] at hi
      cases hi
      exact absurd htakes hguards
    · exact ih hfile
  | again hline hguards hmet hrest ih =>
    rcases askedBy_cons.1 hfile with ⟨i, hi, -, rfl⟩ | hfile
    · rw [hline] at hi
      cases hi
      exact hrest.subset hmet
    · exact ih hfile
  | absent hline hguards hmet htext hrest ih =>
    rcases askedBy_cons.1 hfile with ⟨i, hi, -, rfl⟩ | hfile
    · rw [hline] at hi
      cases hi
      exact hrest.subset (List.mem_append_right _ List.mem_cons_self)
    · exact ih hfile
  | opens hline hguards hmet htext hinner hrest _ ih =>
    rcases askedBy_cons.1 hfile with ⟨i, hi, -, rfl⟩ | hfile
    · rw [hline] at hi
      cases hi
      exact hrest.subset (hinner.subset (List.mem_append_right _ List.mem_cons_self))
    · exact ih hfile

/-- Whatever a file asks for that was met on the way is met, too. -/
lemma closed (h : Reading lib defines met lines events met') (hfile : file ∈ met')
    (hnew : file ∉ met) {text other : String} (htext : lib.text? file = some text)
    (hother : AskedBy defines (linesOf text.toList) other) : other ∈ met' := by
  induction h with
  | done => exact absurd hfile hnew
  | keep _ _ ih => exact ih hfile hnew
  | skip _ _ _ ih => exact ih hfile hnew
  | again _ _ _ _ ih => exact ih hfile hnew
  | absent _ _ _ habsent _ ih =>
    refine ih hfile fun hmem => ?_
    rcases List.mem_append.1 hmem with hmem | hmem
    · exact hnew hmem
    · rw [List.mem_singleton.1 hmem, habsent] at htext
      cases htext
  | @opens _ inside _ _ _ _ _ i _ _ _ _ hopen hinner hrest ihfile ih =>
    by_cases hinside : file ∈ inside
    · refine hrest.subset ?_
      by_cases heq : file = i.file
      · subst heq
        rw [hopen] at htext
        cases htext
        exact hinner.mem_of_askedBy hother
      · refine ihfile hinside fun hmem => ?_
        rcases List.mem_append.1 hmem with hmem | hmem
        · exact hnew hmem
        · exact heq (List.mem_singleton.1 hmem)
    · exact ih hfile hinside

/-- Whatever is met was asked for. -/
lemma sound (h : Reading lib defines met lines events met') (hfile : file ∈ met') :
    file ∈ met ∨ Reached lib defines lines file := by
  induction h with
  | done => exact .inl hfile
  | keep _ _ ih => exact (ih hfile).imp_right (Reached.mono (List.subset_cons_self _ _))
  | skip _ _ _ ih => exact (ih hfile).imp_right (Reached.mono (List.subset_cons_self _ _))
  | again _ _ _ _ ih => exact (ih hfile).imp_right (Reached.mono (List.subset_cons_self _ _))
  | absent hline hguards _ _ _ ih =>
    rcases ih hfile with hmem | hreached
    · rcases List.mem_append.1 hmem with hmem | hmem
      · exact .inl hmem
      · rw [List.mem_singleton.1 hmem]
        exact .inr (.lines (askedBy_head hline hguards))
    · exact .inr (hreached.mono (List.subset_cons_self _ _))
  | opens hline hguards _ htext _ _ ihfile ih =>
    rcases ih hfile with hinside | hreached
    · rcases ihfile hinside with hmem | hreached
      · rcases List.mem_append.1 hmem with hmem | hmem
        · exact .inl hmem
        · rw [List.mem_singleton.1 hmem]
          exact .inr (.lines (askedBy_head hline hguards))
      · exact .inr (hreached.of_file (.lines (askedBy_head hline hguards)) htext)
    · exact .inr (hreached.mono (List.subset_cons_self _ _))

/-- What a reading from the start meets is what is reached. -/
lemma mem_iff (h : Reading lib defines [] lines events met') :
    file ∈ met' ↔ Reached lib defines lines file := by
  constructor
  · intro hfile
    exact (h.sound hfile).resolve_left List.not_mem_nil
  · intro hreached
    induction hreached with
    | lines hasked => exact h.mem_of_askedBy hasked
    | file _ htext hother ih => exact h.closed ih List.not_mem_nil htext hother

/-- What is written is no include line, and has no line feed if no line has. -/
lemma mem_kept (h : Reading lib defines met lines events met') {line : List Char}
    (hline : line ∈ events.filterMap ReadingEvent.kept?) : Include.ofLine? line = none ∧
      (line ∈ lines ∨ ∃ file text, lib.text? file = some text ∧ line ∈ linesOf text.toList) := by
  induction h with
  | done => cases hline
  | keep hnone _ ih =>
    rcases List.mem_cons.1 hline with rfl | hline
    · exact ⟨hnone, .inl List.mem_cons_self⟩
    · exact (ih hline).imp_right (.imp_left (List.mem_cons_of_mem _))
  | skip _ _ _ ih => exact (ih hline).imp_right (.imp_left (List.mem_cons_of_mem _))
  | again _ _ _ _ ih => exact (ih hline).imp_right (.imp_left (List.mem_cons_of_mem _))
  | absent _ _ _ _ _ ih => exact (ih hline).imp_right (.imp_left (List.mem_cons_of_mem _))
  | @opens _ _ _ _ _ inner events _ _ _ _ _ htext _ _ ihfile ih =>
    change line ∈ (inner ++ events).filterMap ReadingEvent.kept? at hline
    rw [List.filterMap_append] at hline
    rcases List.mem_append.1 hline with hline | hline
    · obtain ⟨hnone, hinside⟩ := ihfile hline
      refine ⟨hnone, .inr ?_⟩
      rcases hinside with hinside | hinside
      · exact ⟨_, _, htext, hinside⟩
      · exact hinside
    · exact (ih hline).imp_right (.imp_left (List.mem_cons_of_mem _))

/-- Lines before others are read before them. -/
lemma exists_append {others : List (List Char)}
    (h : Reading lib defines met (lines ++ others) events met') :
    ∃ middle first rest, events = first ++ rest ∧ Reading lib defines met lines first middle ∧
      Reading lib defines middle others rest met' := by
  induction lines generalizing met events with
  | nil => exact ⟨met, [], events, rfl, .done, h⟩
  | cons line lines ih =>
    cases h with
    | keep hline hrest =>
      obtain ⟨middle, first, rest, rfl, hfirst, hothers⟩ := ih hrest
      exact ⟨middle, _, rest, rfl, .keep hline hfirst, hothers⟩
    | skip hline hguards hrest =>
      obtain ⟨middle, first, rest, rfl, hfirst, hothers⟩ := ih hrest
      exact ⟨middle, _, rest, rfl, .skip hline hguards hfirst, hothers⟩
    | again hline hguards hmet hrest =>
      obtain ⟨middle, first, rest, rfl, hfirst, hothers⟩ := ih hrest
      exact ⟨middle, _, rest, rfl, .again hline hguards hmet hfirst, hothers⟩
    | absent hline hguards hmet htext hrest =>
      obtain ⟨middle, first, rest, rfl, hfirst, hothers⟩ := ih hrest
      exact ⟨middle, _, rest, rfl, .absent hline hguards hmet htext hfirst, hothers⟩
    | opens hline hguards hmet htext hfile hrest =>
      obtain ⟨middle, first, rest, rfl, hfirst, hothers⟩ := ih hrest
      refine ⟨middle, _, rest, ?_, .opens hline hguards hmet htext hfile hfirst, hothers⟩
      rw [List.cons_append, List.cons_append, List.append_assoc]

/-- Lines that are no include lines are written as they are. -/
lemma eq_map_kept (h : Reading lib defines met lines events met')
    (hplain : ∀ line ∈ lines, Include.ofLine? line = none) : events = lines.map .kept := by
  induction h with
  | done => rfl
  | keep _ _ ih =>
    rw [ih (List.forall_mem_cons.1 hplain).2, List.map_cons]
  | skip hline | again hline | absent hline | opens hline =>
    rw [(List.forall_mem_cons.1 hplain).1] at hline
    cases hline

/-- A block of lines that are no include lines is written as it is. -/
lemma infix_kept {before block after : List (List Char)}
    (h : Reading lib defines met (before ++ (block ++ after)) events met')
    (hplain : ∀ line ∈ block, Include.ofLine? line = none) : block.map .kept <:+: events := by
  obtain ⟨_, first, rest, rfl, -, hrest⟩ := h.exists_append
  obtain ⟨_, middle, last, rfl, hblock, -⟩ := hrest.exists_append
  rw [hblock.eq_map_kept hplain]
  exact ⟨first, last, List.append_assoc _ _ _⟩

/-- A file that is opened is read. -/
lemma exists_of_opened (h : Reading lib defines met lines events met')
    (hfile : .opened file ∈ events) : ∃ text inner before after, lib.text? file = some text ∧
      Reading lib defines before (linesOf text.toList) inner after ∧ inner <:+: events := by
  induction h with
  | done => cases hfile
  | keep _ _ ih =>
    obtain ⟨text, inner, before, after, htext, hread, hinfix⟩ := ih (by simpa using hfile)
    exact ⟨text, inner, before, after, htext, hread, List.infix_cons hinfix⟩
  | skip _ _ _ ih => exact ih hfile
  | again _ _ _ _ ih =>
    obtain ⟨text, inner, before, after, htext, hread, hinfix⟩ := ih (by simpa using hfile)
    exact ⟨text, inner, before, after, htext, hread, List.infix_cons hinfix⟩
  | absent _ _ _ _ _ ih =>
    obtain ⟨text, inner, before, after, htext, hread, hinfix⟩ := ih (by simpa using hfile)
    exact ⟨text, inner, before, after, htext, hread, List.infix_cons hinfix⟩
  | @opens _ _ _ _ _ inside events i text hline hguards hmet hopen hinner hrest ihfile ih =>
    simp only [List.mem_cons, List.mem_append, reduceCtorEq, false_or, ReadingEvent.opened.injEq]
      at hfile
    rcases hfile with rfl | hinside | hbehind
    · exact ⟨text, inside, _, _, hopen, hinner, [.named i.file, .opened i.file], events, rfl⟩
    · obtain ⟨text', inner', before, after, htext, hread, hinfix⟩ := ihfile hinside
      refine ⟨text', inner', before, after, htext, hread, hinfix.trans ?_⟩
      exact List.infix_cons (List.infix_cons (List.prefix_append _ _).isInfix)
    · obtain ⟨text', inner', before, after, htext, hread, hinfix⟩ := ih hbehind
      refine ⟨text', inner', before, after, htext, hread, hinfix.trans ?_⟩
      exact List.infix_cons (List.infix_cons (List.suffix_append _ _).isInfix)

/-- Lines are read in one way only. -/
lemma unique {events' : List ReadingEvent} {met'' : List String}
    (h : Reading lib defines met lines events met')
    (h' : Reading lib defines met lines events' met'') : events' = events ∧ met'' = met' := by
  induction h generalizing events' met'' with
  | done =>
    cases h'
    exact ⟨rfl, rfl⟩
  | keep hline _ ih =>
    cases h' with
    | keep _ hrest => exact (ih hrest).imp_left (congrArg _)
    | skip hline' | again hline' | absent hline' | opens hline' =>
      rw [hline] at hline'
      cases hline'
  | skip hline hguards _ ih =>
    cases h' with
    | skip _ _ hrest => exact ih hrest
    | _ => simp_all
  | again hline hguards hmet _ ih =>
    cases h' with
    | again hline' _ _ hrest =>
      rw [Option.some.inj (hline'.symm.trans hline)]
      exact (ih hrest).imp_left (congrArg _)
    | _ => simp_all
  | absent hline hguards hmet htext _ ih =>
    cases h' with
    | absent hline' _ _ _ hrest =>
      cases hline.symm.trans hline'
      exact (ih hrest).imp_left (congrArg _)
    | _ => simp_all
  | opens hline hguards hmet htext _ _ ihfile ih =>
    cases h' with
    | opens hline' _ _ htext' hfile hrest =>
      cases hline.symm.trans hline'
      cases htext.symm.trans htext'
      obtain ⟨rfl, rfl⟩ := ihfile hfile
      obtain ⟨rfl, rfl⟩ := ih hrest
      exact ⟨rfl, rfl⟩
    | _ => simp_all

/-- A file is met where it is asked for first. -/
lemma eq_foldl (h : Reading lib defines met lines events met') :
    met' = (events.filterMap ReadingEvent.named?).foldl meet met := by
  induction h with
  | done => rfl
  | keep _ _ ih => exact ih
  | skip _ _ _ ih => exact ih
  | again _ _ hmet _ ih =>
    change _ = List.foldl meet (meet _ _) _
    rw [meet, if_pos hmet]
    exact ih
  | absent _ _ hmet _ _ ih =>
    change _ = List.foldl meet (meet _ _) _
    rw [meet, if_neg hmet]
    exact ih
  | @opens met _ _ _ _ inner events i _ _ _ hmet _ _ _ ihfile ih =>
    change _ = ((inner ++ events).filterMap ReadingEvent.named?).foldl meet (meet met i.file)
    rw [List.filterMap_append, List.foldl_append, meet, if_neg hmet, ← ihfile]
    exact ih

/-- The files that are opened are those of the library among the ones that are met. -/
lemma filter_met (h : Reading lib defines met lines events met') :
    met'.filter (fun file => (lib.text? file).isSome) =
      met.filter (fun file => (lib.text? file).isSome) ++ events.filterMap ReadingEvent.opened? := by
  induction h with
  | done => exact (List.append_nil _).symm
  | keep _ _ ih => exact ih
  | skip _ _ _ ih => exact ih
  | again _ _ _ _ ih => exact ih
  | absent _ _ _ htext _ ih =>
    rw [List.filter_append, List.filter_cons_of_neg (by rw [htext]; exact Bool.false_ne_true),
      List.filter_nil, List.append_nil] at ih
    exact ih
  | @opens met _ _ _ _ inner events i _ _ _ _ htext _ _ ihfile ih =>
    rw [List.filter_append, List.filter_cons_of_pos (by rw [htext]; rfl), List.filter_nil] at ihfile
    rw [ih, ihfile, List.append_assoc, List.append_assoc, ← List.filterMap_append]
    rfl

end Reading

/-- The files met in the end are the files asked for, each at its first place. -/
lemma foldl_meet (names met : List String) :
    names.foldl meet met = met ++ (names.filter fun name => decide (name ∉ met)).eraseDups := by
  induction names generalizing met with
  | nil => exact (List.append_nil met).symm
  | cons name names ih =>
    rw [List.foldl_cons, ih, meet]
    split
    next hmem =>
      rw [List.filter_cons_of_neg (by simpa using hmem)]
    next hmem =>
      rw [List.filter_cons_of_pos (by simpa using hmem), List.eraseDups_cons, List.filter_filter,
        List.append_assoc, List.singleton_append]
      congr 4
      funext other
      rw [Bool.eq_iff_iff]
      simp [and_comm]

/-- No file is met twice. -/
lemma nodup_foldl_meet (names : List String) (h : met.Nodup) : (names.foldl meet met).Nodup := by
  induction names generalizing met with
  | nil => exact h
  | cons name names ih =>
    refine ih ?_
    unfold meet
    split
    next => exact h
    next hnew => exact List.nodup_append.2 ⟨h, List.nodup_singleton name, by
      rintro file hfile other hother rfl
      exact hnew (List.mem_singleton.1 hother ▸ hfile)⟩

/-! ## Expansions -/

/-- The number of files in the library that were not met. -/
def unmet (lib : Library) (met : List String) : Nat :=
  {file ∈ (lib.files.map (·.1)).toFinset | file ∉ met}.card

lemma unmet_lt_length (lib : Library) (met : List String) : unmet lib met < lib.files.length + 1 := by
  have hnames := List.toFinset_card_le (lib.files.map (·.1))
  rw [List.length_map] at hnames
  exact Nat.lt_succ_of_le ((Finset.card_filter_le _ _).trans hnames)

/-- Every file that is met leaves at most as many of them. -/
lemma unmet_le (h : met ⊆ met') : unmet lib met' ≤ unmet lib met :=
  Finset.card_le_card (Finset.monotone_filter_right _ fun _ _ hnew hmem => hnew (h hmem))

/-- A file of the library that is met leaves one less. -/
lemma unmet_meet {text : String} (htext : lib.text? file = some text) (hnew : file ∉ met) :
    unmet lib (met ++ [file]) < unmet lib met := by
  have hfile : file ∈ lib.files.map (·.1) := by
    obtain ⟨front, back, hfiles, -⟩ := List.lookup_eq_some_iff.1 htext
    rw [hfiles]
    exact List.mem_map.2 ⟨(file, text), List.mem_append_right _ List.mem_cons_self, rfl⟩
  refine Finset.card_lt_card (Finset.ssubset_iff_of_subset ?_ |>.2 ⟨file, ?_, ?_⟩)
  · exact Finset.monotone_filter_right _ fun _ _ hnot hmem => hnot (List.mem_append_left _ hmem)
  · rw [Finset.mem_filter, List.mem_toFinset]
    exact ⟨hfile, hnew⟩
  · rw [Finset.mem_filter]
    exact fun h => h.2 (List.mem_append_right _ List.mem_cons_self)

/-- The missing files are those that were met and that the library does not have. -/
def Expansion.Consistent (lib : Library) (e : Expansion) : Prop :=
  e.missing = e.met.filter fun file => (lib.text? file).isNone

/-- What lines that are read do to an expansion. -/
structure Reads (lib : Library) (defines : List String) (e : Expansion) (lines : List (List Char))
    (events : List ReadingEvent) (e' : Expansion) : Prop where
  reading : Reading lib defines e.met lines events e'.met
  lines : e'.lines = e.lines ++ events.filterMap ReadingEvent.kept?
  missing : e.Consistent lib → e'.Consistent lib

/-- A file that the library has is met without being missing. -/
lemma Expansion.Consistent.meetFile {e : Expansion} (h : e.Consistent lib)
    (htext : (lib.text? file).isSome) : (e.meetFile file).Consistent lib := by
  have hhas : [file].filter (fun file => (lib.text? file).isNone) = [] := by
    simpa [Option.isSome_iff_ne_none] using htext
  rw [Consistent, Expansion.meetFile, List.filter_append, hhas, List.append_nil]
  exact h

/-- A file that the library does not have is missing when it is met. -/
lemma Expansion.Consistent.miss {e : Expansion} (h : e.Consistent lib)
    (htext : lib.text? file = none) : ((e.meetFile file).miss file).Consistent lib := by
  have hnone : [file].filter (fun file => (lib.text? file).isNone) = [file] := by simp [htext]
  rw [Consistent, Expansion.miss, Expansion.meetFile, List.filter_append, hnone]
  exact congrArg (· ++ [file]) h

section Expansion

variable {defined : String → Bool}
  (hdefined : ∀ i : Include, i.holds defined = true ↔ i.TakesPart defines)

include hdefined

/-- Expansion reads one line after another, if it reads the files that it opens. -/
lemma exists_reads_expandLine {visit : String → Expansion → Expansion} {e e' : Expansion}
    (hvisit : ∀ file text, lib.text? file = some text → file ∉ e.met →
      ∃ inner, Reads lib defines (e.meetFile file) (linesOf text.toList) inner
        (visit text (e.meetFile file)))
    (hrest : Reads lib defines (expandLine lib defined visit e line) lines events e') :
    ∃ events', Reads lib defines e (line :: lines) events' e' := by
  obtain ⟨hreading, hlines, hmissing⟩ := hrest
  unfold expandLine at hreading hlines hmissing
  cases hline : Include.ofLine? line with
  | none =>
    rw [hline] at hreading hlines hmissing
    refine ⟨.kept line :: events, .keep hline hreading, ?_, hmissing⟩
    rw [hlines, Expansion.write, List.append_assoc]
    rfl
  | some i =>
    rw [hline] at hreading hlines hmissing
    simp only at hreading hlines hmissing
    by_cases hguards : i.TakesPart defines
    · have hholds := (hdefined i).2 hguards
      by_cases hmet : i.file ∈ e.met
      · rw [if_pos (by simp [hmet])] at hreading hlines hmissing
        exact ⟨_, .again hline hguards hmet hreading, hlines, hmissing⟩
      · rw [if_neg (by simp [hholds, hmet])] at hreading hlines hmissing
        cases htext : lib.text? i.file with
        | none =>
          rw [htext] at hreading hlines hmissing
          exact ⟨_, .absent hline hguards hmet htext hreading, hlines, fun h => hmissing (h.miss htext)⟩
        | some text =>
          rw [htext] at hreading hlines hmissing
          obtain ⟨inner, hfile, hfileLines, hfileMissing⟩ := hvisit i.file text htext hmet
          refine ⟨_, .opens hline hguards hmet htext hfile hreading, ?_,
            fun h => hmissing (hfileMissing (h.meetFile (by rw [htext]; rfl)))⟩
          rw [hlines, hfileLines, List.append_assoc, ← List.filterMap_append]
          rfl
    · have hholds : i.holds defined = false :=
        Bool.eq_false_iff.2 fun h => hguards ((hdefined i).1 h)
      rw [if_pos (by simp [hholds])] at hreading hlines hmissing
      exact ⟨_, .skip hline hguards hreading, hlines, hmissing⟩

/-- **Expansion reads a text.** A depth greater than the number of files that were not met is never
reached. -/
lemma exists_reads_expand {fuel : Nat} {text : String} {e : Expansion}
    (hfuel : unmet lib e.met < fuel) :
    ∃ events, Reads lib defines e (linesOf text.toList) events (expand lib defined fuel text e) := by
  induction fuel generalizing text e with
  | zero => exact absurd hfuel (Nat.not_lt_zero _)
  | succ fuel ih =>
    rw [expand]
    have hle : unmet lib e.met ≤ fuel := Nat.le_of_lt_succ hfuel
    clear hfuel
    generalize linesOf text.toList = lines
    induction lines generalizing e with
    | nil => exact ⟨[], .done, (List.append_nil _).symm, id⟩
    | cons line lines ihlines =>
      have hvisit : ∀ file text, lib.text? file = some text → file ∉ e.met →
          ∃ inner, Reads lib defines (e.meetFile file) (linesOf text.toList) inner
            (expand lib defined fuel text (e.meetFile file)) :=
        fun file text htext hnew => ih ((unmet_meet htext hnew).trans_le hle)
      rw [List.foldl_cons]
      -- the line meets more files, if anything
      have hle' : unmet lib (expandLine lib defined (expand lib defined fuel) e line).met ≤ fuel := by
        obtain ⟨events, hreads⟩ : ∃ events, Reads lib defines e [line] events
            (expandLine lib defined (expand lib defined fuel) e line) :=
          exists_reads_expandLine hdefined hvisit ⟨.done, (List.append_nil _).symm, id⟩
        exact (unmet_le hreads.reading.subset).trans hle
      obtain ⟨events, hreads⟩ := ihlines hle'
      exact exists_reads_expandLine hdefined hvisit hreads

end Expansion

/-- What becomes of a body when its includes are resolved. -/
structure Resolved (lib : Library) (defines : List String) (body : String)
    (events : List ReadingEvent) (e : Expansion) : Prop where
  /-- The body and the files that it opens are read in depth-first order. -/
  reading : Reading lib defines [] (linesOf body.toList) events e.met
  /-- There is no other way to read them. -/
  unique : ∀ events' met, Reading lib defines [] (linesOf body.toList) events' met →
    events' = events ∧ met = e.met
  /-- All lines but include lines are written, in this order. -/
  lines : e.lines = events.filterMap ReadingEvent.kept?
  opened_once : (events.filterMap ReadingEvent.opened?).Nodup
  opened_iff : ∀ file, file ∈ events.filterMap ReadingEvent.opened? ↔
    (lib.text? file).isSome ∧ Reached lib defines (linesOf body.toList) file
  /-- The text that was written has no include lines. -/
  text : ∀ line ∈ linesOf e.text.toList, Include.ofLine? line = none
  missing_once : e.missing.Nodup
  missing_iff : ∀ file, file ∈ e.missing ↔
    lib.text? file = none ∧ Reached lib defines (linesOf body.toList) file
  /-- Missing files come in the order in which they were asked for first. -/
  missing : e.missing = (events.filterMap ReadingEvent.named?).eraseDups.filter
    fun file => (lib.text? file).isNone

/-- The definition lines decide which include lines take part. -/
lemma holds_ofLines_iff (pool : SymbolPool) (defines : List String) (i : Include) :
    i.holds ((MacroSet.ofLines pool defines).2.contains (MacroSet.ofLines pool defines).1) = true ↔
      i.TakesPart defines := by
  obtain ⟨-, hset⟩ := MacroSet.Represents.ofLines pool defines
  rw [Include.holds, Bool.or_eq_true, List.isEmpty_iff, List.any_eq_true, Include.TakesPart]
  simp only [hset.contains_iff, MacroMap.mem_ofLines_iff]

/-- The includes of a body are resolved. -/
lemma exists_resolved_expandBody (pool : SymbolPool) (lib : Library) (body : String)
    (defines : List String) :
    ∃ events, Resolved lib defines body events (expandBody pool lib body defines).1 := by
  obtain ⟨events, hreading, hlines, hmissing⟩ :
      ∃ events, Reads lib defines {} (linesOf body.toList) events (expandBody pool lib body defines).1 :=
    exists_reads_expand (holds_ofLines_iff pool defines) (unmet_lt_length lib [])
  change Reading lib defines [] _ events (expandBody pool lib body defines).1.met at hreading
  change (expandBody pool lib body defines).1.lines = _ at hlines
  replace hmissing : (expandBody pool lib body defines).1.Consistent lib := hmissing rfl
  generalize (expandBody pool lib body defines).1 = e at hreading hlines hmissing
  rw [List.nil_append] at hlines
  have hnames : e.met = (events.filterMap ReadingEvent.named?).eraseDups := by
    rw [hreading.eq_foldl, foldl_meet, List.nil_append]
    simp
  have hnodup : e.met.Nodup := by
    rw [hreading.eq_foldl]
    exact nodup_foldl_meet _ List.nodup_nil
  have hopened : events.filterMap ReadingEvent.opened? =
      e.met.filter fun file => (lib.text? file).isSome := by
    rw [hreading.filter_met, List.filter_nil, List.nil_append]
  have hkept : ∀ line ∈ e.lines, Include.ofLine? line = none ∧ '\n' ∉ line := by
    intro line hline
    rw [hlines] at hline
    obtain ⟨hnone, hfrom⟩ := hreading.mem_kept hline
    refine ⟨hnone, ?_⟩
    rcases hfrom with hbody | ⟨file, text, -, hfile⟩
    · exact not_mem_of_mem_linesOf hbody
    · exact not_mem_of_mem_linesOf hfile
  refine ⟨events, hreading, fun _ _ => hreading.unique, hlines, ?_, fun file => ?_,
    fun line hline => ?_, ?_, fun file => ?_, ?_⟩
  · rw [hopened]
    exact hnodup.filter _
  · rw [hopened, List.mem_filter, hreading.mem_iff, and_comm]
  · rw [Expansion.text, String.toList_ofList, linesOf_flatMap fun line h => (hkept line h).2] at hline
    obtain ⟨kept, hmem, rfl⟩ := List.mem_map.1 hline
    exact ofLine?_dropReturn_eq_none (hkept kept hmem).1
  · rw [hmissing]
    exact hnodup.filter _
  · rw [hmissing, List.mem_filter, hreading.mem_iff, Option.isNone_iff_eq_none, and_comm]
  · rw [hmissing, hnames]

/-- **Includes are resolved.** Whatever the files are and whichever of them include one another, the
files of a body are found in depth-first order, and each is opened once, if a line asks for it that
takes part under the definitions. What is missing is reported, each file once and in the order in which
files are asked for, and beyond that only the skeleton can have a problem. -/
theorem process_resolved (pool : SymbolPool) (lib : Library) (settings : Settings) (body : String)
    (defines extensions : List String) :
    ∃ events, Resolved lib defines body events (expandBody pool lib body defines).1 ∧
      ∃ problems, (process pool lib settings body defines extensions).diagnostics =
          (expandBody pool lib body defines).1.missing.map .unresolvedInclude ++ problems ∧
        ∀ problem ∈ problems, ∃ reason, problem = .skeleton reason := by
  obtain ⟨events, hresolved⟩ := exists_resolved_expandBody pool lib body defines
  refine ⟨events, hresolved, ?_⟩
  unfold process prepare
  generalize expandBody pool lib body defines = expanded
  obtain ⟨e, lines⟩ := expanded
  simp only
  split
  next => exact ⟨[], (List.append_nil _).symm, List.forall_mem_nil _⟩
  next reason _ =>
    refine ⟨[.skeleton reason], rfl, fun problem hproblem => ⟨reason, ?_⟩⟩
    exact List.mem_singleton.1 hproblem

end Source

end SceneShading
