import Mathlib.Tactic
import SceneShading.Proofs.Source.Inclusion

/-!
# What a source defines

A source has the lines of the skeleton, the extensions and the definitions of the program among them,
and those of the body with its includes resolved (`Source.linesOf_process`). A definition line that the
set prints is read back as the name and the value that it was printed for
(`parseDefineLine_defineLine`).

The files of the built-in library define names of their own, but none that starts with an underscore.
So a source with a tame body defines such a name exactly if the program does
(`Source.definesName_process`).
-/

namespace SceneShading

/-! ## Words -/

namespace Text

variable {cut : Char → Bool} {s a b : List Char} {piece : List Char}

/-- A word is not empty and has no blanks. -/
def IsWord (w : String) : Prop := w ≠ "" ∧ ∀ c ∈ w.toList, ¬isBlank c = true

lemma isWord_of_mem_words {text w : String} (h : w ∈ words text) : IsWord w := by
  obtain ⟨piece, hpiece, rfl⟩ := List.mem_map.1 h
  obtain ⟨hmem, hempty⟩ := List.mem_filter.1 hpiece
  refine ⟨fun heq => ?_, fun c hc => ?_⟩
  · rw [← String.toList_inj, String.toList_ofList] at heq
    rw [heq] at hempty
    cases hempty
  · rw [String.toList_ofList] at hc
    exact not_cut_of_mem_split hmem c hc

/-- The tokens of a text around a cut are those of its two sides. -/
lemma tokens_around {c : Char} (hc : cut c = true) (a b : List Char) :
    tokens cut (String.ofList (a ++ c :: b)) =
      tokens cut (String.ofList a) ++ tokens cut (String.ofList b) := by
  simp only [tokens, String.toList_ofList, split_append hc, List.filter_append, List.map_append]

/-- A text without cuts is its own only token, if it is not empty. -/
lemma tokens_of_not_cut {w : String} (hne : w ≠ "") (h : ∀ c ∈ w.toList, ¬cut c = true) :
    tokens cut w = [w] := by
  have hchars : w.toList ≠ [] := fun hnil => hne (String.toList_eq_nil_iff.1 hnil)
  rw [tokens, split_of_not_cut h, List.filter_cons_of_pos (by simpa using hchars)]
  simp

/-- The words of a text around a blank are those of its two sides. -/
lemma words_around {c : Char} (hc : isBlank c = true) (a b : List Char) :
    words (String.ofList (a ++ c :: b)) = words (String.ofList a) ++ words (String.ofList b) :=
  tokens_around hc a b

/-- A word is its own only word. -/
lemma words_of_isWord {w : String} (h : IsWord w) : words w = [w] := tokens_of_not_cut h.1 h.2

/-- Words with blanks between them are the words of their text. -/
lemma words_intercalate {ws : List String} (h : ∀ w ∈ ws, IsWord w) :
    words (" ".intercalate ws) = ws := by
  induction ws with
  | nil => rfl
  | cons w ws ih =>
    obtain ⟨hfirst, hrest⟩ := List.forall_mem_cons.1 h
    cases ws with
    | nil => rw [String.intercalate_singleton, words_of_isWord hfirst]
    | cons next ws =>
      have hsplit : " ".intercalate (w :: next :: ws) =
          String.ofList (w.toList ++ ' ' :: (" ".intercalate (next :: ws)).toList) := by
        rw [String.intercalate_cons_cons]
        apply String.toList_injective
        simp
      rw [hsplit, words_around rfl, String.ofList_toList, String.ofList_toList,
        words_of_isWord hfirst, ih hrest, List.singleton_append]

/-- A carriage return at the end is no part of a token if it is a cut. -/
lemma tokens_dropReturn (hc : cut '\r' = true) (line : List Char) :
    tokens cut (String.ofList (dropReturn line)) = tokens cut (String.ofList line) := by
  unfold dropReturn
  split
  next hlast =>
    have hne : line ≠ [] := by
      rintro rfl
      cases hlast
    have hline : line.dropLast ++ '\r' :: [] = line := by
      rw [List.getLast?_eq_some_getLast hne, Option.some.injEq] at hlast
      rw [← hlast, List.dropLast_concat_getLast hne]
    conv_rhs => rw [← hline, tokens_around hc]
    exact (List.append_nil _).symm
  next => rfl

/-- A carriage return at the end is no part of a word. -/
lemma words_dropReturn (line : List Char) :
    words (String.ofList (dropReturn line)) = words (String.ofList line) :=
  tokens_dropReturn rfl line

end Text

/-! ## Definition lines -/

open Text

variable {line name value : String}

/-- A definition line is a mark, a name and the words of a value. -/
lemma parseDefineLine_eq_some_iff : parseDefineLine line = some (name, value) ↔
    ∃ ws, Text.words line = "#define" :: name :: ws ∧ " ".intercalate ws = value := by
  unfold parseDefineLine
  split
  next other ws hwords =>
    rw [hwords]
    simp only [Option.some.injEq, Prod.mk.injEq, List.cons.injEq, true_and]
    constructor
    · rintro ⟨rfl, rfl⟩
      exact ⟨ws, ⟨rfl, rfl⟩, rfl⟩
    · rintro ⟨ws', ⟨rfl, rfl⟩, rfl⟩
      exact ⟨rfl, rfl⟩
  next hnone =>
    refine ⟨nofun, ?_⟩
    rintro ⟨ws, hwords, -⟩
    exact absurd hwords (hnone name ws)

/-- A definition line is printed as words with blanks between them. -/
lemma defineLine_intercalate (name : String) {ws : List String} (h : ∀ w ∈ ws, IsWord w) :
    defineLine name (" ".intercalate ws) = " ".intercalate ("#define" :: name :: ws) := by
  rw [String.intercalate_cons_cons]
  unfold defineLine
  cases ws with
  | nil =>
    rw [String.intercalate_nil, String.intercalate_singleton]
    rfl
  | cons w ws =>
    have hfilled : ¬(" ".intercalate (w :: ws)).isEmpty = true := by
      intro hempty
      have hnone : Text.words (" ".intercalate (w :: ws)) = w :: ws := words_intercalate h
      rw [String.isEmpty_iff.1 hempty] at hnone
      cases hnone
    rw [if_neg hfilled, String.intercalate_cons_cons]
    simp only [String.append_assoc]
    rfl

/-- What a definition line says is printed as words. -/
lemma exists_words_of_parseDefineLine (h : parseDefineLine line = some (name, value)) :
    ∃ ws, (∀ w ∈ "#define" :: name :: ws, IsWord w) ∧ " ".intercalate ws = value ∧
      defineLine name value = " ".intercalate ("#define" :: name :: ws) := by
  obtain ⟨ws, hwords, rfl⟩ := parseDefineLine_eq_some_iff.1 h
  have hall : ∀ w ∈ "#define" :: name :: ws, IsWord w := fun w hw =>
    isWord_of_mem_words (hwords ▸ hw)
  refine ⟨ws, hall, rfl, defineLine_intercalate name fun w hw => hall w ?_⟩
  exact List.mem_cons_of_mem _ (List.mem_cons_of_mem _ hw)

/-- What a definition line says is printed as a definition line that says the same. -/
lemma parseDefineLine_defineLine (h : parseDefineLine line = some (name, value)) :
    parseDefineLine (defineLine name value) = some (name, value) := by
  obtain ⟨ws, hall, hvalue, hprinted⟩ := exists_words_of_parseDefineLine h
  exact parseDefineLine_eq_some_iff.2 ⟨ws, by rw [hprinted, words_intercalate hall], hvalue⟩

/-- A definition line is printed on one line. -/
lemma blank_of_mem_defineLine (h : parseDefineLine line = some (name, value)) {c : Char}
    (hc : c ∈ (defineLine name value).toList) (hblank : isBlank c = true) : c = ' ' := by
  obtain ⟨ws, hall, -, hprinted⟩ := exists_words_of_parseDefineLine h
  rw [hprinted] at hc
  generalize "#define" :: name :: ws = words at hall hc
  induction words with
  | nil =>
    rw [String.intercalate_nil] at hc
    cases hc
  | cons w words ih =>
    obtain ⟨hfirst, hrest⟩ := List.forall_mem_cons.1 hall
    cases words with
    | nil =>
      rw [String.intercalate_singleton] at hc
      exact absurd hblank (hfirst.2 c hc)
    | cons next words =>
      rw [String.intercalate_cons_cons, String.toList_append, String.toList_append,
        List.mem_append, List.mem_append] at hc
      rcases hc with (hc | hc) | hc
      · exact absurd hblank (hfirst.2 c hc)
      · exact List.mem_singleton.1 hc
      · exact ih hrest hc

namespace Source

/-- A line of the source defines the name. -/
def definesName (source name : String) : Bool :=
  (linesOf source.toList).any fun line => (parseDefineLine (String.ofList line)).any (·.1 == name)

lemma definesName_iff {source : String} : definesName source name = true ↔
    ∃ line ∈ linesOf source.toList, ∃ value, parseDefineLine (String.ofList line) = some (name, value) := by
  simp only [definesName, List.any_eq_true, Option.any_eq_true, beq_iff_eq, Prod.exists]
  constructor
  · rintro ⟨line, hline, other, value, hparsed, rfl⟩
    exact ⟨line, hline, value, hparsed⟩
  · rintro ⟨line, hline, value, hparsed⟩
    exact ⟨line, hline, name, value, hparsed, rfl⟩

/-! ## Lines of sources -/

/-- Texts on lines of their own, and the lines behind them. -/
lemma linesOf_ofLines_append (heads : List String) (rest : String) :
    linesOf (Builtin.ofLines heads ++ rest).toList =
      (heads.flatMap fun head => (split (· == '\n') head.toList).map dropReturn) ++
        linesOf rest.toList := by
  induction heads with
  | nil => simp [Builtin.ofLines]
  | cons head heads ih =>
    have hsplit : (Builtin.ofLines (head :: heads) ++ rest).toList =
        head.toList ++ '\n' :: (Builtin.ofLines heads ++ rest).toList := by
      rw [Builtin.ofLines_cons]
      simp
    rw [hsplit, linesOf_append, ih, List.flatMap_cons, List.append_assoc]

variable {pool : SymbolPool} {lib : Library} {body : String} {defines extensions : List String}
  {events : List ReadingEvent} {e : Expansion}

/-- A line that is written is a line of the body, or of a file of the library. -/
lemma Resolved.mem_lines (h : Resolved lib defines body events e) {line : List Char}
    (hline : line ∈ e.lines) : Include.ofLine? line = none ∧ (line ∈ linesOf body.toList ∨
      ∃ file text, lib.text? file = some text ∧ line ∈ linesOf text.toList) :=
  h.reading.mem_kept (h.lines ▸ hline)

/-- The lines of the text that was written. -/
lemma Resolved.linesOf_text (h : Resolved lib defines body events e) :
    linesOf e.text.toList = e.lines.map dropReturn := by
  rw [Expansion.text, String.toList_ofList, linesOf_flatMap]
  intro line hline
  obtain ⟨-, hbody | ⟨file, text, -, hfile⟩⟩ := h.mem_lines hline
  · exact not_mem_of_mem_linesOf hbody
  · exact not_mem_of_mem_linesOf hfile

/-- The lines of the source of a body are those that stand before the body, and those of the body with
its includes resolved. -/
lemma linesOf_process (pool : SymbolPool) (settings : Settings) (body : String)
    (defines extensions : List String) :
    let expanded := expandBody pool {} body defines
    linesOf (process pool {} settings body defines extensions).source.toList =
      ((headLines settings (sortUnique extensions) expanded.2 expanded.1.text).flatMap fun head =>
        (split (· == '\n') head.toList).map dropReturn) ++ expanded.1.lines.map dropReturn := by
  obtain ⟨events, hresolved⟩ := exists_resolved_expandBody pool {} body defines
  rw [process_eq, linesOf_ofLines_append, hresolved.linesOf_text]

/-! ## Names with an underscore in front -/

/-- The name starts with an underscore. -/
def IsMarked (name : String) : Prop := name.toList.head? = some '_'

/-- The line does not define a name that starts with an underscore. -/
def Unmarked (line : List Char) : Prop :=
  ∀ name value, parseDefineLine (String.ofList line) = some (name, value) → ¬IsMarked name

/-- Without the mark of definition lines in front, a line defines nothing. -/
lemma unmarked_of_head? {line : List Char}
    (h : (Text.words (String.ofList line)).head? ≠ some "#define") : Unmarked line := by
  intro name value hparsed
  obtain ⟨ws, hwords, -⟩ := parseDefineLine_eq_some_iff.1 hparsed
  rw [hwords] at h
  exact absurd rfl h

/-- A line without number signs defines nothing. -/
lemma unmarked_of_not_mem {line : List Char} (h : '#' ∉ line) : Unmarked line := by
  refine unmarked_of_head? fun hhead => h ?_
  obtain ⟨piece, hpiece, hmark⟩ := List.mem_map.1 (List.mem_of_mem_head? hhead)
  have hsign : '#' ∈ piece := by
    rw [← String.toList_inj, String.toList_ofList] at hmark
    rw [hmark]
    decide
  have hmem := mem_of_mem_split (List.mem_filter.1 hpiece).1 hsign
  rwa [String.toList_ofList] at hmem

/-- A check that the line is one line, and does not define a name that starts with an underscore. -/
def isUnmarked (line : List Char) : Bool :=
  line.all (· != '\n') && (!line.contains '#' ||
    (parseDefineLine (String.ofList line)).all fun p => p.1.toList.head? != some '_')

lemma unmarked_of_isUnmarked {line : List Char} (h : isUnmarked line = true) : Unmarked line := by
  rcases Bool.or_eq_true_iff.1 (Bool.and_eq_true_iff.1 h).2 with hplain | hparsed
  · exact unmarked_of_not_mem (by simpa using hplain)
  · intro name value hdefined hmarked
    rw [hdefined] at hparsed
    exact (bne_iff_ne.1 hparsed) hmarked

/-- The files of the built-in library define no names that start with an underscore. -/
lemma unmarked_files : ∀ f ∈ Builtin.files, ∀ line ∈ linesOf f.2.toList, Unmarked line := by
  rw [Builtin.files]
  repeat rw [List.forall_mem_cons]
  refine ⟨?_, ?_, ?_, ?_, ?_, ?_, ?_, ?_, ?_, ?_, List.forall_mem_nil _⟩ <;>
    exact fun line hline => unmarked_of_isUnmarked
      (all_linesOf_ofLines (by repeat' constructor) (by decide +kernel) line hline)

/-- The line that names the version defines nothing, whatever the version is. -/
lemma unmarked_version {version : String} (h : IsPlain version) :
    ∀ piece ∈ split (· == '\n') ("#version " ++ version).toList, Unmarked piece := by
  intro piece hpiece
  have hplain : ∀ piece ∈ split (· == '\n') version.toList, '#' ∉ piece :=
    fun piece hpiece hmem => h '#' (mem_of_mem_split hpiece hmem) rfl
  have hmark : ∀ text p ps, split (· == '\n') text = p :: ps →
      split (· == '\n') ("#version ".toList ++ text) = ("#version ".toList ++ p) :: ps := by
    intro text p ps hsplit
    simp [split, hsplit]
  obtain ⟨p, ps, hsplit⟩ := List.exists_cons_of_ne_nil (split_ne_nil (· == '\n') version.toList)
  rw [String.toList_append, hmark _ p ps hsplit] at hpiece
  rw [hsplit] at hplain
  rcases List.mem_cons.1 hpiece with rfl | hpiece
  · refine unmarked_of_head? ?_
    have hwords : Text.words (String.ofList ("#version ".toList ++ p)) =
        "#version" :: Text.words (String.ofList p) := by
      have haround := words_around (c := ' ') rfl "#version".toList p
      have hblanks : "#version".toList.all (fun c => !isBlank c) = true := by decide
      have hword : IsWord "#version" :=
        ⟨by decide, fun c hc => by simpa using List.all_eq_true.1 hblanks c hc⟩
      rw [String.ofList_toList, words_of_isWord hword] at haround
      exact haround
    rw [hwords, List.head?_cons]
    exact fun heq => absurd (Option.some.inj heq) (by decide)
  · exact unmarked_of_not_mem (hplain piece (List.mem_cons_of_mem _ hpiece))

/-- The default precision defines nothing. -/
lemma unmarked_precision (precision : FloatPrecision) :
    ∀ piece ∈ split (· == '\n') precision.declaration.toList, Unmarked piece := by
  have hcheck : (split (· == '\n') precision.declaration.toList).all isUnmarked = true := by
    cases precision <;> decide +kernel
  exact fun piece hpiece => unmarked_of_isUnmarked (List.all_eq_true.1 hcheck piece hpiece)

/-! ## Names that a program defines -/

/-- What a line says does not depend on a carriage return at its end. -/
lemma parseDefineLine_dropReturn (line : List Char) :
    parseDefineLine (String.ofList (dropReturn line)) = parseDefineLine (String.ofList line) := by
  simp only [parseDefineLine, words_dropReturn]

/-- Without repetitions, the same texts are there. -/
lemma mem_dropRepeats {text : String} {texts : List String} :
    text ∈ dropRepeats texts ↔ text ∈ texts := by
  fun_induction dropRepeats with
  | case1 => rfl
  | case2 => rfl
  | case3 first r ih =>
    rw [ih]
    simp only [List.mem_cons, or_self_left]
  | case4 first next r hne ih => rw [List.mem_cons, ih, ← List.mem_cons]

lemma mem_sortUnique {text : String} {texts : List String} :
    text ∈ sortUnique texts ↔ text ∈ texts := by
  rw [sortUnique, mem_dropRepeats, (sort_perm texts).mem_iff]

/-- A line of a tame body that is written has no number sign. -/
lemma not_mem_of_tame {text : List Char} (h : Tame lib text) {line : List Char}
    (hline : line ∈ linesOf text) (hkept : Include.ofLine? line = none) : '#' ∉ line := by
  obtain ⟨piece, hpiece, hfrom⟩ := exists_piece_of_line hline
  rcases h piece hpiece with hplain | ⟨hreturn, i, hi, -⟩
  · intro hmem
    rcases hfrom with rfl | rfl
    · exact hplain '#' hmem rfl
    · exact hplain '#' (mem_of_mem_dropReturn hmem) rfl
  · rw [dropReturn_of_not_mem hreturn, or_self] at hfrom
    rw [hfrom, hi] at hkept
    cases hkept

/-- No line of a tame body with its includes resolved defines a name that starts with an underscore. -/
lemma Resolved.unmarked (h : Resolved {} defines body events e) (hbody : Tame {} body.toList) :
    ∀ line ∈ e.lines, Unmarked line := by
  intro line hline
  obtain ⟨hkept, hmem | ⟨file, text, htext, hmem⟩⟩ := h.mem_lines hline
  · exact unmarked_of_not_mem (not_mem_of_tame hbody hmem hkept)
  · obtain ⟨before, after, hfiles, -⟩ := List.lookup_eq_some_iff.1 htext
    have hfile : (file, text) ∈ Builtin.files := by
      have hlist : Builtin.files = before ++ (file, text) :: after := hfiles
      rw [hlist]
      exact List.mem_append_right _ List.mem_cons_self
    exact unmarked_files _ hfile line hmem

/-- What is printed is a line of the source. -/
lemma mem_linesOf_process (pool : SymbolPool) (settings : Settings) (body : String) {line : String}
    (hline : line ∈ extensions ∨
      line ∈ (MacroSet.ofLines pool defines).2.lines (MacroSet.ofLines pool defines).1)
    (hblanks : ∀ c ∈ line.toList, c ≠ '\n' ∧ c ≠ '\r') :
    line.toList ∈ linesOf (process pool {} settings body defines extensions).source.toList := by
  rw [linesOf_process]
  refine List.mem_append_left _ (List.mem_flatMap.2 ⟨line, ?_, ?_⟩)
  · refine List.mem_cons_of_mem _ ?_
    rcases hline with hextension | hdefine
    · exact List.mem_append_left _ (List.mem_append_left _ (mem_sortUnique.2 hextension))
    · exact List.mem_append_right _ hdefine
  · rw [split_line fun hmem => (hblanks _ hmem).1 rfl, List.map_singleton,
      dropReturn_of_not_mem fun hmem => (hblanks _ hmem).2 rfl]
    exact List.mem_singleton_self _

/-- The last definition line of a name is a line of the source, as it is printed. -/
lemma exists_mem_linesOf_process (pool : SymbolPool) (settings : Settings) (body : String)
    (extensions : List String) {name value line : String} (hline : line ∈ defines)
    (hparsed : parseDefineLine line = some (name, value)) :
    ∃ last ∈ defines, ∃ value, parseDefineLine last = some (name, value) ∧
      (defineLine name value).toList ∈
        linesOf (process pool {} settings body defines extensions).source.toList := by
  obtain ⟨last, hlookup⟩ := Finmap.mem_iff.1 (MacroMap.mem_ofLines_iff.2 ⟨line, hline, value, hparsed⟩)
  obtain ⟨source, hsource, hpair⟩ := MacroMap.exists_line_of_lookup hlookup
  obtain ⟨-, hset⟩ := MacroSet.Represents.ofLines pool defines
  have hprinted := hset.mem_lines_iff.2 ⟨name, last, hlookup, rfl⟩
  refine ⟨source, hsource, last, hpair,
    mem_linesOf_process pool settings body (.inr hprinted) fun c hc => ?_⟩
  constructor <;> rintro rfl <;> exact absurd (blank_of_mem_defineLine hpair hc rfl) (by decide)

/-- **What a source defines.** A name that starts with an underscore is defined in the source of a tame
body exactly if a definition line of the program defines it. -/
theorem definesName_process {settings : Settings} (hversion : IsPlain settings.glslVersion)
    (hextensions : ∀ extension ∈ extensions, ∀ piece ∈ split (· == '\n') extension.toList,
      Unmarked piece) (hbody : Tame {} body.toList) {name : String} (hmarked : IsMarked name) :
    definesName (process pool {} settings body defines extensions).source name = true ↔
      ∃ line ∈ defines, ∃ value, parseDefineLine line = some (name, value) := by
  obtain ⟨events, hresolved⟩ := exists_resolved_expandBody pool {} body defines
  rw [definesName_iff]
  constructor
  · rintro ⟨line, hline, value, hparsed⟩
    rw [linesOf_process] at hline
    rcases List.mem_append.1 hline with hhead | hbelow
    · obtain ⟨head, hmem, hfrom⟩ := List.mem_flatMap.1 hhead
      clear hhead hline
      obtain ⟨piece, hpiece, rfl⟩ := List.mem_map.1 hfrom
      clear hfrom
      rw [parseDefineLine_dropReturn] at hparsed
      rcases List.mem_cons.1 hmem with rfl | hmem
      · exact absurd hmarked (unmarked_version hversion piece hpiece name value hparsed)
      rcases List.mem_append.1 hmem with hmem | hdefine
      · rcases List.mem_append.1 hmem with hextension | hprecision
        · have hunmarked := hextensions head (mem_sortUnique.1 hextension) piece hpiece
          exact absurd hmarked (hunmarked name value hparsed)
        · split at hprecision
          · cases hprecision
          · rw [List.mem_singleton.1 hprecision] at hpiece
            exact absurd hmarked (unmarked_precision _ piece hpiece name value hparsed)
      · obtain ⟨-, hset⟩ := MacroSet.Represents.ofLines pool defines
        obtain ⟨other, v, hlookup, rfl⟩ := hset.mem_lines_iff.1 hdefine
        obtain ⟨line, hline, hpair⟩ := MacroMap.exists_line_of_lookup hlookup
        have hfeed : '\n' ∉ (defineLine other v).toList := fun hmem =>
          absurd (blank_of_mem_defineLine hpair hmem rfl) (by decide)
        rw [split_line hfeed, List.mem_singleton] at hpiece
        rw [hpiece, String.ofList_toList, parseDefineLine_defineLine hpair] at hparsed
        exact ⟨line, hline, value, hpair.trans hparsed⟩
    · obtain ⟨kept, hkept, rfl⟩ := List.mem_map.1 hbelow
      rw [parseDefineLine_dropReturn] at hparsed
      exact absurd hmarked (hresolved.unmarked hbody kept hkept name value hparsed)
  · rintro ⟨line, hline, value, hparsed⟩
    obtain ⟨last, -, value', hlast, hmem⟩ := 
      exists_mem_linesOf_process pool settings body extensions hline hparsed
    refine ⟨_, hmem, value', ?_⟩
    rw [String.ofList_toList, parseDefineLine_defineLine hlast]

/-- A block of lines of a file that the body reaches is a block of the source, if none of the lines is
an include line or ends in a carriage return. -/
lemma infix_linesOf_process (pool : SymbolPool) (settings : Settings) (extensions : List String)
    {file text : String} (hreached : Reached {} defines (linesOf body.toList) file)
    (htext : ({} : Library).text? file = some text) {before block after : List (List Char)}
    (hlines : linesOf text.toList = before ++ (block ++ after))
    (hplain : ∀ line ∈ block, Include.ofLine? line = none ∧ '\r' ∉ line) :
    block <:+: linesOf (process pool {} settings body defines extensions).source.toList := by
  obtain ⟨events, hresolved⟩ := exists_resolved_expandBody pool {} body defines
  obtain ⟨event, hevent, hopened⟩ :=
    List.mem_filterMap.1 ((hresolved.opened_iff file).2 ⟨by rw [htext]; rfl, hreached⟩)
  obtain rfl : event = .opened file := by
    cases event <;> cases hopened
    rfl
  obtain ⟨text', inner, _, _, htext', hread, hinner⟩ := hresolved.reading.exists_of_opened hevent
  rw [htext] at htext'
  cases htext'
  rw [hlines] at hread
  have hblock := (hread.infix_kept fun line hline => (hplain line hline).1).trans hinner
  have hwritten : block <:+: (expandBody pool {} body defines).1.lines := by
    have hkept := hblock.filterMap ReadingEvent.kept?
    have hsame : (block.map ReadingEvent.kept).filterMap ReadingEvent.kept? = block := by
      rw [List.filterMap_map]
      exact List.filterMap_some
    rwa [hsame, ← hresolved.lines] at hkept
  have hsame : block.map dropReturn = block :=
    (List.map_congr_left fun line hline => dropReturn_of_not_mem (hplain line hline).2).trans
      (List.map_id _)
  rw [linesOf_process, ← hsame]
  exact (hwritten.map dropReturn).trans (List.suffix_append _ _).isInfix

end Source

end SceneShading
