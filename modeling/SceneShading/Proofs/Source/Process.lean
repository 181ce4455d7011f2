import Mathlib.Tactic
import SceneShading.Codegen.Stage
import SceneShading.Proofs.Graph.Vocabulary

/-!
# Sources without problems

A body whose include lines name files of the library becomes a source without any problem
(`process_diagnostics`): every file is found, since the files include files of the library only, and
the skeleton of the library renders whatever the body, the extensions and the definitions are
(`renderSkeleton_skeleton`).

Lines that are no include lines stay as they are, so that a plain block between two line feeds of the
body is a block of the source (`infix_process`).
-/

namespace SceneShading

/-! ## Lines -/

namespace Text

variable {cut : Char → Bool} {c : Char} {s piece : List Char}

/-- The pieces of a text around a cut are those of its two sides. -/
lemma split_append (hc : cut c = true) (a b : List Char) :
    split cut (a ++ c :: b) = split cut a ++ split cut b := by
  induction a with
  | nil =>
    rw [List.nil_append, split_nil, List.singleton_append]
    exact if_pos hc
  | cons d a ih =>
    rw [List.cons_append, split, split, ih]
    split
    · rfl
    · cases ha : split cut a with
      | nil => exact absurd ha (split_ne_nil cut a)
      | cons p ps => rfl

/-- The pieces between line feeds of texts joined by line feeds are the pieces of the texts. -/
lemma split_intercalate (s : String) (texts : List String) :
    split (· == '\n') ("\n".intercalate (s :: texts)).toList =
      (s :: texts).flatMap fun t => split (· == '\n') t.toList := by
  induction texts generalizing s with
  | nil => simp
  | cons t texts ih =>
    have htext : ("\n".intercalate (s :: t :: texts)).toList =
        s.toList ++ '\n' :: ("\n".intercalate (t :: texts)).toList := by
      rw [String.intercalate_cons_cons, String.toList_append, String.toList_append]
      simp
    rw [htext, split_append (by rfl), ih, List.flatMap_cons, List.flatMap_cons, List.flatMap_cons]

/-- A text without cuts is one piece. -/
lemma split_of_not_cut (h : ∀ c ∈ s, ¬cut c = true) : split cut s = [s] := by
  induction s with
  | nil => rfl
  | cons d s ih =>
    obtain ⟨hd, hs⟩ := List.forall_mem_cons.1 h
    rw [split, if_neg hd, ih hs]

/-- A text without line feeds is one line. -/
lemma split_line (h : '\n' ∉ s) : split (· == '\n') s = [s] :=
  split_of_not_cut fun _ hc hfeed => h (beq_iff_eq.1 hfeed ▸ hc)

/-- The characters of the pieces are those of the text. -/
lemma mem_of_mem_split (h : piece ∈ split cut s) (hc : c ∈ piece) : c ∈ s := by
  induction s generalizing piece with
  | nil =>
    rw [split_nil, List.mem_singleton] at h
    exact h ▸ hc
  | cons d s ih =>
    rw [split] at h
    split at h
    · rcases List.mem_cons.1 h with rfl | h
      · cases hc
      · exact List.mem_cons_of_mem _ (ih h hc)
    · cases hs : split cut s with
      | nil => exact absurd hs (split_ne_nil cut s)
      | cons p ps =>
        rw [hs] at h ih
        rcases List.mem_cons.1 h with rfl | h
        · rcases List.mem_cons.1 hc with rfl | hc
          · exact List.mem_cons_self
          · exact List.mem_cons_of_mem _ (ih List.mem_cons_self hc)
        · exact List.mem_cons_of_mem _ (ih (List.mem_cons_of_mem _ h) hc)

/-- The pieces between line feeds, each with a line feed, are the text with a line feed. -/
lemma flatMap_split (s : List Char) :
    (split (· == '\n') s).flatMap (· ++ ['\n']) = s ++ ['\n'] := by
  induction s with
  | nil => rfl
  | cons d s ih =>
    rw [split]
    split
    next hd =>
      rw [List.flatMap_cons, ih, beq_iff_eq.1 hd]
      rfl
    next =>
      cases hs : split (· == '\n') s with
      | nil => exact absurd hs (split_ne_nil _ s)
      | cons p ps =>
        rw [hs, List.flatMap_cons] at ih
        rw [List.flatMap_cons, List.cons_append, List.cons_append, ih, List.cons_append]

/-- The lines of pieces with other pieces behind them. -/
lemma linesOfPieces_append (pieces : List (List Char)) {others : List (List Char)}
    (h : others ≠ []) :
    linesOfPieces (pieces ++ others) = pieces.map dropReturn ++ linesOfPieces others := by
  induction pieces with
  | nil => rfl
  | cons p ps ih =>
    obtain ⟨q, qs, hq⟩ : ∃ q qs, ps ++ others = q :: qs :=
      List.exists_cons_of_ne_nil (List.append_ne_nil_of_right_ne_nil ps h)
    rw [List.cons_append, hq, linesOfPieces, ← hq, ih, List.map_cons,
      List.cons_append]
    exact fun hnil => List.cons_ne_nil _ _ hnil

/-- The lines of a text around a line feed. -/
lemma linesOf_append (a b : List Char) :
    linesOf (a ++ '\n' :: b) = (split (· == '\n') a).map dropReturn ++ linesOf b := by
  rw [linesOf, split_append (by rfl), linesOfPieces_append _ (split_ne_nil _ b), linesOf]

/-- A line of pieces is a piece, maybe without its carriage return. -/
lemma exists_piece_of_line {pieces : List (List Char)} {line : List Char}
    (h : line ∈ linesOfPieces pieces) : ∃ piece ∈ pieces, line = piece ∨ line = dropReturn piece := by
  induction pieces with
  | nil => cases h
  | cons p ps ih =>
    cases ps with
    | nil =>
      rw [linesOfPieces] at h
      split at h
      · cases h
      · exact ⟨p, List.mem_cons_self, .inl (List.mem_singleton.1 h)⟩
    | cons q qs =>
      rw [linesOfPieces] at h
      rcases List.mem_cons.1 h with rfl | h
      · exact ⟨p, List.mem_cons_self, .inr rfl⟩
      · obtain ⟨piece, hpiece, hline⟩ := ih h
        exact ⟨piece, List.mem_cons_of_mem _ hpiece, hline⟩
      · simp

/-- Without carriage returns, no line loses one. -/
lemma dropReturn_of_not_mem (h : '\r' ∉ piece) : dropReturn piece = piece := by
  rw [dropReturn, if_neg]
  exact fun hlast => h (List.mem_of_getLast? hlast)

/-- A piece that is not empty is a line. -/
lemma mem_linesOf (hpiece : piece ∈ split (· == '\n') s) (hne : piece ≠ []) (hreturn : '\r' ∉ piece) :
    piece ∈ linesOf s := by
  rw [linesOf]
  generalize split (· == '\n') s = pieces at hpiece
  induction pieces with
  | nil => cases hpiece
  | cons p ps ih =>
    cases ps with
    | nil =>
      obtain rfl := List.mem_singleton.1 hpiece
      rw [linesOfPieces, if_neg (by rwa [List.isEmpty_iff])]
      exact hpiece
    | cons q qs =>
      rw [linesOfPieces]
      · rcases List.mem_cons.1 hpiece with rfl | hpiece
        · rw [dropReturn_of_not_mem hreturn]
          exact List.mem_cons_self
        · exact List.mem_cons_of_mem _ (ih hpiece)
      · simp

/-- The characters of a line without its carriage return are those of the line. -/
lemma mem_of_mem_dropReturn (h : c ∈ dropReturn piece) : c ∈ piece := by
  rw [dropReturn] at h
  split at h
  · exact List.mem_of_mem_dropLast h
  · exact h

end Text

namespace Source

open Text

variable {lib : Library} {defined : String → Bool} {line piece text : List Char}

/-! ## Include lines -/

/-- A line without number signs is no include line. -/
lemma ofLine?_eq_none (h : '#' ∉ line) : Include.ofLine? line = none := by
  rw [Include.ofLine?]
  refine if_neg fun hstart => h ?_
  obtain ⟨rest, hrest⟩ := List.isPrefixOf_iff_prefix.1 hstart
  refine (List.dropWhile_sublist isBlank).subset ?_
  rw [← trimStart, ← hrest]
  exact List.mem_append_left _ (by decide)

/-- The line is no include line, or the library has its file. -/
def Resolves (lib : Library) (line : List Char) : Prop :=
  ∀ i, Include.ofLine? line = some i → (lib.text? i.file).isSome

/-- A line without number signs resolves. -/
lemma resolves_of_not_mem (h : '#' ∉ line) : Resolves lib line := by
  intro i hi
  rw [ofLine?_eq_none h] at hi
  cases hi

/-- Every line of the text resolves, whatever stands around the text. -/
def Closed (lib : Library) (text : List Char) : Prop :=
  ∀ piece ∈ split (· == '\n') text, Resolves lib piece ∧ Resolves lib (dropReturn piece)

/-- The lines of a closed text resolve. -/
lemma Closed.resolves (h : Closed lib text) : ∀ line ∈ linesOf text, Resolves lib line := by
  intro line hline
  obtain ⟨piece, hpiece, rfl | rfl⟩ := exists_piece_of_line hline
  · exact (h line hpiece).1
  · exact (h piece hpiece).2

/-- A text without number signs is closed. -/
lemma closed_of_not_mem (h : '#' ∉ text) : Closed lib text := by
  intro piece hpiece
  have hnone : '#' ∉ piece := fun hmem => h (mem_of_mem_split hpiece hmem)
  exact ⟨resolves_of_not_mem hnone, resolves_of_not_mem fun hmem => hnone (mem_of_mem_dropReturn hmem)⟩

/-- The line is one line, and it resolves in the built-in library. -/
def isResolved (line : List Char) : Bool :=
  line.all (fun c => c != '\n' && c != '\r') &&
    (Include.ofLine? line).all fun i => (({} : Library).text? i.file).isSome

/-- A line that was checked is closed. -/
lemma closed_of_isResolved (h : isResolved line = true) : Closed {} line := by
  obtain ⟨hchars, hfile⟩ := Bool.and_eq_true_iff.1 h
  have hline : ∀ c ∈ line, c ≠ '\n' ∧ c ≠ '\r' := by simpa using hchars
  have hresolves : Resolves {} line := by
    intro i hi
    rw [hi] at hfile
    exact hfile
  intro piece hpiece
  rw [split_line fun hmem => (hline _ hmem).1 rfl, List.mem_singleton] at hpiece
  subst hpiece
  rw [dropReturn_of_not_mem fun hmem => (hline _ hmem).2 rfl]
  exact ⟨hresolves, hresolves⟩

/-- The characters of a file are those of its lines, with a line feed behind each. -/
lemma Builtin.toList_ofLines (lines : List String) :
    (ofLines lines).toList = lines.flatMap fun line => line.toList ++ ['\n'] := by
  rw [ofLines]
  induction lines with
  | nil => rfl
  | cons line lines ih =>
    rw [List.map_cons, String.join_cons, String.toList_append, String.toList_append, ih,
      List.flatMap_cons]
    rfl

/-- The pieces of a file are its lines, letter by letter, and an empty one. -/
lemma split_ofLines {lines : List String} {spelled : List (List Char)}
    (hspelled : List.Forall₂ (fun line chars => line = String.ofList chars) lines spelled)
    (hlines : ∀ chars ∈ spelled, '\n' ∉ chars) :
    split (· == '\n') (Builtin.ofLines lines).toList = spelled ++ [[]] := by
  induction hspelled with
  | nil => rfl
  | @cons line chars lines spelled hline _ ih =>
    obtain ⟨hfirst, hrest⟩ := List.forall_mem_cons.1 hlines
    have hsource : (Builtin.ofLines (line :: lines)).toList =
        chars ++ '\n' :: (Builtin.ofLines lines).toList := by
      simp [Builtin.toList_ofLines, hline]
    rw [hsource, split_append (by rfl), split_line hfirst, ih hrest]
    rfl

/-- The lines of a file, letter by letter. -/
lemma linesOf_ofLines {lines : List String} {spelled : List (List Char)}
    (hspelled : List.Forall₂ (fun line chars => line = String.ofList chars) lines spelled)
    (hlines : ∀ chars ∈ spelled, '\n' ∉ chars ∧ '\r' ∉ chars) :
    linesOf (Builtin.ofLines lines).toList = spelled := by
  have hsame : spelled.map dropReturn = spelled :=
    (List.map_congr_left fun chars hchars => dropReturn_of_not_mem (hlines chars hchars).2).trans
      (List.map_id _)
  rw [linesOf, split_ofLines hspelled fun chars hchars => (hlines chars hchars).1,
    linesOfPieces_append _ (List.cons_ne_nil _ _), hsame]
  exact List.append_nil _

/-- A check of the lines of a file, letter by letter, is a check of all lines that the file has. -/
lemma all_linesOf_ofLines {lines : List String} {spelled : List (List Char)} {check : List Char → Bool}
    (hspelled : List.Forall₂ (fun line chars => line = String.ofList chars) lines spelled)
    (h : spelled.all (fun chars => chars.all (fun c => c != '\n' && c != '\r') && check chars) = true) :
    ∀ line ∈ linesOf (Builtin.ofLines lines).toList, check line = true := by
  have hchecked : ∀ chars ∈ spelled, (∀ c ∈ chars, c ≠ '\n' ∧ c ≠ '\r') ∧ check chars = true := by
    simpa only [List.all_eq_true, Bool.and_eq_true, bne_iff_ne] using h
  rw [linesOf_ofLines hspelled fun chars hchars => ?_]
  · exact fun line hline => (hchecked line hline).2
  · have hsingle := (hchecked chars hchars).1
    exact ⟨fun hmem => (hsingle _ hmem).1 rfl, fun hmem => (hsingle _ hmem).2 rfl⟩

/-- A file is closed if its lines, letter by letter, are. -/
lemma closed_ofLines {lines : List String} {spelled : List (List Char)}
    (hspelled : List.Forall₂ (fun line chars => line = String.ofList chars) lines spelled)
    (h : spelled.all isResolved = true) : Closed {} (Builtin.ofLines lines).toList := by
  have hresolved := List.all_eq_true.1 h
  have hlines : ∀ chars ∈ spelled, '\n' ∉ chars := by
    intro chars hchars hmem
    have hall := (Bool.and_eq_true_iff.1 (hresolved chars hchars)).1
    simpa using List.all_eq_true.1 hall '\n' hmem
  intro piece hpiece
  rw [split_ofLines hspelled hlines] at hpiece
  rcases List.mem_append.1 hpiece with hpiece | hpiece
  · refine closed_of_isResolved (hresolved piece hpiece) piece ?_
    rw [split_line (hlines piece hpiece)]
    exact List.mem_cons_self
  · exact closed_of_not_mem List.not_mem_nil piece hpiece

/-- Every line of the text is plain, or it is a line that includes a file of the library. -/
def Tame (lib : Library) (text : List Char) : Prop :=
  ∀ piece ∈ split (· == '\n') text, (∀ c ∈ piece, ¬isSign c = true) ∨
    '\r' ∉ piece ∧ ∃ i, Include.ofLine? piece = some i ∧ (lib.text? i.file).isSome

/-- A tame text is closed. -/
lemma Tame.closed (h : Tame lib text) : Closed lib text := by
  intro piece hpiece
  rcases h piece hpiece with hplain | ⟨hreturn, i, hi, hfile⟩
  · have hnone : '#' ∉ piece := fun hmem => hplain '#' hmem rfl
    exact ⟨resolves_of_not_mem hnone, resolves_of_not_mem fun hmem => hnone (mem_of_mem_dropReturn hmem)⟩
  · rw [dropReturn_of_not_mem hreturn, and_self]
    intro j hj
    rw [hi] at hj
    cases hj
    exact hfile

/-- A plain text is tame. -/
lemma tame_of_isPlain {s : String} (h : IsPlain s) : Tame lib s.toList :=
  fun _ hpiece => .inl fun c hc => h c (mem_of_mem_split hpiece hc)

/-- Tame texts on lines of their own are tame. -/
lemma tame_intercalate {texts : List String} (h : ∀ s ∈ texts, Tame lib s.toList) :
    Tame lib ("\n".intercalate texts).toList := by
  cases texts with
  | nil => exact tame_of_isPlain (by decide)
  | cons s texts =>
    intro piece hpiece
    rw [split_intercalate] at hpiece
    obtain ⟨text, htext, hmem⟩ := List.mem_flatMap.1 hpiece
    exact h text htext piece hmem

/-- A line that includes a file of the library. -/
lemma tame_of_include {i : Include} (hline : ∀ c ∈ line, c ≠ '\n' ∧ c ≠ '\r')
    (hi : Include.ofLine? line = some i) (hfile : (lib.text? i.file).isSome) : Tame lib line := by
  intro piece hpiece
  rw [split_line fun hmem => (hline _ hmem).1 rfl, List.mem_singleton] at hpiece
  subst hpiece
  exact .inr ⟨fun hmem => (hline _ hmem).2 rfl, i, hi, hfile⟩

/-- The files of the built-in library include files of the library only. -/
lemma closed_files : ∀ f ∈ Builtin.files, Closed {} f.2.toList := by
  rw [Builtin.files]
  simp only [List.forall_mem_cons]
  refine ⟨?_, ?_, ?_, ?_, ?_, ?_, ?_, ?_, ?_, ?_, List.forall_mem_nil _⟩ <;>
    exact closed_ofLines (by repeat' constructor) (by decide)

/-! ## Expansions -/

/-- What one line does to an expansion that a file keeps free of missing files. -/
lemma missing_expandLine {expandFile : String → Expansion → Expansion}
    (hfile : ∀ name s, lib.text? name = some s → ∀ e, (expandFile s e).missing = e.missing)
    (hline : Resolves lib line) (e : Expansion) :
    (expandLine lib defined expandFile e line).missing = e.missing := by
  rw [expandLine]
  cases hi : Include.ofLine? line with
  | none => rfl
  | some i =>
    simp only
    split
    · rfl
    · obtain ⟨s, hs⟩ := Option.isSome_iff_exists.1 (hline i hi)
      rw [hs]
      exact hfile i.file s hs _

/-- In a closed library, the expansion of a closed text misses no file. -/
lemma missing_expand (hlib : ∀ name s, lib.text? name = some s → Closed lib s.toList)
    (fuel : Nat) {s : String} (hs : Closed lib s.toList) (e : Expansion) :
    (expand lib defined fuel s e).missing = e.missing := by
  induction fuel generalizing s e with
  | zero => rfl
  | succ fuel ih =>
    rw [expand]
    have hlines := hs.resolves
    generalize linesOf s.toList = lines at hlines
    induction lines generalizing e with
    | nil => rfl
    | cons line lines ihlines =>
      obtain ⟨hfirst, hrest⟩ := List.forall_mem_cons.1 hlines
      rw [List.foldl_cons, ihlines _ hrest]
      exact missing_expandLine (fun name s hname e => ih (hlib name s hname) e) hfirst e

/-- The expansion of a closed text in the built-in library misses no file. -/
lemma missing_resolveIncludes {body : String} (h : Closed {} body.toList) :
    (resolveIncludes {} defined body).missing = [] := by
  refine missing_expand (fun name s hs => ?_) _ h {}
  have hmem : (name, s) ∈ Builtin.files := by
    obtain ⟨l, r, hfiles, -⟩ := List.lookup_eq_some_iff.1 hs
    have hlist : Builtin.files = l ++ (name, s) :: r := hfiles
    rw [hlist]
    exact List.mem_append_right _ List.mem_cons_self
  exact closed_files _ hmem

/-- Lines go on behind the lines that were written before if files do. -/
lemma prefix_lines_foldl {expandFile : String → Expansion → Expansion}
    (hfile : ∀ s e, e.lines <+: (expandFile s e).lines) (lines : List (List Char)) (e : Expansion) :
    e.lines <+: (lines.foldl (expandLine lib defined expandFile) e).lines := by
  induction lines generalizing e with
  | nil => exact List.prefix_rfl
  | cons line lines ih =>
    refine List.IsPrefix.trans ?_ (ih _)
    rw [expandLine]
    cases Include.ofLine? line with
    | none => exact List.prefix_append _ _
    | some i =>
      simp only
      split
      · exact List.prefix_rfl
      · cases lib.text? i.file with
        | none => exact List.prefix_rfl
        | some s => exact hfile s (e.meetFile i.file)

/-- An expansion goes on behind the lines that were written before. -/
lemma prefix_lines_expand (fuel : Nat) (s : String) (e : Expansion) :
    e.lines <+: (expand lib defined fuel s e).lines := by
  induction fuel generalizing s e with
  | zero => exact List.prefix_rfl
  | succ fuel ih => exact prefix_lines_foldl ih (linesOf s.toList) e

/-- The lines of a text without number signs and carriage returns are written as they are. -/
lemma foldl_expandLine_of_not_mem {expandFile : String → Expansion → Expansion}
    {lines : List (List Char)} (h : ∀ line ∈ lines, '#' ∉ line) (e : Expansion) :
    (lines.foldl (expandLine lib defined expandFile) e).lines = e.lines ++ lines := by
  induction lines generalizing e with
  | nil => exact (List.append_nil _).symm
  | cons line lines ih =>
    obtain ⟨hfirst, hrest⟩ := List.forall_mem_cons.1 h
    rw [List.foldl_cons, ih hrest, expandLine, ofLine?_eq_none hfirst, Expansion.write,
      List.append_assoc, List.singleton_append]

/-- A plain block between two line feeds is a block of the expansion. -/
lemma infix_resolveIncludes (before after : String) {block : String} (h : IsPlain block) :
    block.toList <:+: (resolveIncludes lib defined
      (before ++ "\n" ++ (block ++ "\n" ++ after))).text.toList := by
  have htext : (before ++ "\n" ++ (block ++ "\n" ++ after)).toList =
      before.toList ++ '\n' :: (block.toList ++ '\n' :: after.toList) := by
    simp
  have hpieces : ∀ piece ∈ split (· == '\n') block.toList, '#' ∉ piece ∧ '\r' ∉ piece :=
    fun piece hpiece => ⟨fun hmem => h _ (mem_of_mem_split hpiece hmem) rfl,
      fun hmem => h _ (mem_of_mem_split hpiece hmem) rfl⟩
  have hkept : (split (· == '\n') block.toList).map dropReturn =
      split (· == '\n') block.toList :=
    List.map_congr_left (fun piece hpiece => dropReturn_of_not_mem (hpieces piece hpiece).2)
      |>.trans (List.map_id _)
  rw [resolveIncludes, expand, htext, linesOf_append, linesOf_append, hkept, List.foldl_append,
    List.foldl_append]
  -- the lines before the block, those of the block, and those behind it
  generalize (List.foldl _ ({} : Expansion) _) = e
  have hblock : ((split (· == '\n') block.toList).foldl
      (expandLine lib defined (expand lib defined lib.files.length)) e).lines =
        e.lines ++ split (· == '\n') block.toList :=
    foldl_expandLine_of_not_mem (fun piece hpiece => (hpieces piece hpiece).1) e
  obtain ⟨more, hmore⟩ : ((split (· == '\n') block.toList).foldl
      (expandLine lib defined (expand lib defined lib.files.length)) e).lines <+:
        ((linesOf after.toList).foldl (expandLine lib defined (expand lib defined lib.files.length))
          ((split (· == '\n') block.toList).foldl
            (expandLine lib defined (expand lib defined lib.files.length)) e)).lines :=
    prefix_lines_foldl (prefix_lines_expand lib.files.length) _ _
  rw [Expansion.text, String.toList_ofList, ← hmore, hblock, List.flatMap_append,
    List.flatMap_append, flatMap_split]
  exact ⟨e.lines.flatMap (· ++ ['\n']), ['\n'] ++ more.flatMap (· ++ ['\n']), by simp⟩

/-! ## Skeletons -/

/-- The items of the built-in skeleton. -/
def Builtin.skeletonItems : List SkeletonItem :=
  ['#', 'v', 'e', 'r', 's', 'i', 'o', 'n', ' '].map .char ++
    [.placeholder "version", .char '\n',
     .loop "extension" "extensions" [.placeholder "extension", .char '\n'] [],
     .choice "precision" [.placeholder "precision", .char '\n'] [],
     .loop "define" "defines" [.placeholder "define", .char '\n'] [],
     .placeholder "body"]

set_option maxRecDepth 4000 in
/-- The built-in skeleton is read as its items. -/
lemma skeletonItems_skeleton : skeletonItems Builtin.skeleton = .ok Builtin.skeletonItems := by
  -- the lines are evaluated one by one, which is faster than the whole text
  rw [skeletonItems, Builtin.skeleton, Builtin.toList_ofLines]
  rfl

lemma Builtin.ofLines_cons (line : String) (lines : List String) :
    ofLines (line :: lines) = line ++ "\n" ++ ofLines lines := by
  rw [ofLines, List.map_cons, String.join_cons, ofLines]

lemma Builtin.ofLines_append (lines lines' : List String) :
    ofLines (lines ++ lines') = ofLines lines ++ ofLines lines' := by
  rw [ofLines, List.map_append, String.join_append, ofLines, ofLines]

/-- The items become the text. -/
def Renders (scope : SkeletonScope) (items : List SkeletonItem) (text : String) : Prop :=
  String.join <$> renderItems scope items = .ok text

namespace Renders

variable {scope : SkeletonScope} {items body other : List SkeletonItem} {text rest name : String}
  {v : SkeletonValue}

lemma nil : Renders scope [] "" := rfl

/-- An item, and the items behind it. -/
lemma cons {item : SkeletonItem} (h : String.join <$> renderItem scope item = .ok text)
    (hrest : Renders scope items rest) : Renders scope (item :: items) (text ++ rest) := by
  unfold Renders at *
  rw [renderItems]
  cases hfirst : renderItem scope item with
  | error e => rw [hfirst] at h; cases h
  | ok parts =>
    cases hothers : renderItems scope items with
    | error e => rw [hothers] at hrest; cases hrest
    | ok others =>
      rw [hfirst] at h
      rw [hothers] at hrest
      cases h
      cases hrest
      exact congrArg Except.ok String.join_append

/-- Characters stand for themselves. -/
lemma chars (cs : List Char) (hrest : Renders scope items rest) :
    Renders scope (cs.map .char ++ items) (String.ofList cs ++ rest) := by
  induction cs with
  | nil => simpa using hrest
  | cons c cs ih =>
    have htext : String.ofList (c :: cs) ++ rest =
        String.singleton c ++ (String.ofList cs ++ rest) := by
      apply String.toList_injective
      simp
    rw [htext]
    exact cons (by simp [renderItem, String.join_cons]) ih

/-- A placeholder stands for the value of its name. -/
lemma placeholder (hv : scope.lookup name = some v) (hrest : Renders scope items rest) :
    Renders scope (.placeholder name :: items) (v.render ++ rest) := by
  refine cons ?_ hrest
  simp [renderItem, hv, String.join_cons]

/-- A choice stands for its first branch if the value of its name holds, and for the second one
otherwise. -/
lemma choice (hv : scope.lookup name = some v)
    (htext : Renders scope (if v.holds then body else other) text)
    (hrest : Renders scope items rest) :
    Renders scope (.choice name body other :: items) (text ++ rest) := by
  refine cons ?_ hrest
  rw [renderItem, hv]
  change String.join <$> (if v.holds then renderItems scope body else renderItems scope other) = _
  cases hholds : v.holds <;> rw [hholds] at htext <;> exact htext

/-- A repetition over texts stands for a line of each. -/
lemma lines {list : String} {texts : List String} (hv : scope.lookup list = some (.list texts))
    (hrest : Renders scope items rest) :
    Renders scope (.loop name list [.placeholder name, .char '\n'] [] :: items)
      (Builtin.ofLines texts ++ rest) := by
  refine cons ?_ hrest
  have hround : ∀ text, renderItems ((name, .text text) :: scope) [.placeholder name, .char '\n'] =
      .ok [text, "\n"] := by
    intro text
    simp [renderItems, renderItem, SkeletonValue.render]
    rfl
  have hlines : (texts.mapM fun text => renderItems ((name, .text text) :: scope)
      [.placeholder name, .char '\n']) = .ok (texts.map fun text => [text, "\n"]) := by
    rw [funext hround]
    exact List.mapM_pure
  have hjoin : String.join ((texts.map fun text => [text, "\n"]).flatten) =
      Builtin.ofLines texts := by
    unfold Builtin.ofLines
    clear hv hlines
    induction texts with
    | nil => rfl
    | cons text texts ih => simp [String.join_cons, ih, String.append_assoc]
  rw [renderItem, hv]
  cases texts with
  | nil => rfl
  | cons text texts =>
    simp only [Option.map_some, SkeletonValue.rounds?]
    rw [hlines]
    exact congrArg Except.ok hjoin

end Renders

/-- The lines that stand before the body. -/
def headLines (settings : Settings) (extensions defines : List String) (body : String) :
    List String :=
  ("#version " ++ settings.glslVersion) :: (extensions ++
    (if declaresPrecision body then [] else [settings.precision.declaration]) ++ defines)

/-- **The built-in skeleton prints** the version, the extensions, a default precision unless the body
declares one, the definitions, and the body. -/
theorem renderSkeleton_skeleton (settings : Settings) (extensions defines : List String)
    (body : String) :
    renderSkeleton Builtin.skeleton (skeletonScope settings extensions defines body) =
      .ok (Builtin.ofLines (headLines settings extensions defines body) ++ body) := by
  set scope := skeletonScope settings extensions defines body ++ SkeletonScope.constants with hscope
  have hversion : scope.lookup "version" = some (.text settings.glslVersion) := rfl
  have hextensions : scope.lookup "extensions" = some (.list extensions) := rfl
  have hprecision : scope.lookup "precision" = some
      (if declaresPrecision body then .absent else .text settings.precision.declaration) := rfl
  have hdefines : scope.lookup "defines" = some (.list defines) := rfl
  have hbody : scope.lookup "body" = some (.text body) := rfl
  set default := Builtin.ofLines
    (if declaresPrecision body then [] else [settings.precision.declaration]) with hdefault
  have hchoice : Renders scope (if (if declaresPrecision body then SkeletonValue.absent
      else .text settings.precision.declaration).holds then [.placeholder "precision", .char '\n']
      else []) default := by
    by_cases hdeclares : declaresPrecision body = true
    · rw [hdefault, if_pos hdeclares, if_pos hdeclares]
      exact .nil
    · rw [if_neg hdeclares] at hprecision
      have hholds : (SkeletonValue.text settings.precision.declaration).holds = true := by
        cases settings.precision <;> rfl
      rw [hdefault, if_neg hdeclares, if_neg hdeclares, if_pos hholds]
      exact .placeholder hprecision (.chars ['\n'] .nil)
  have hrenders : Renders scope Builtin.skeletonItems _ :=
    .chars _ <| .placeholder hversion <| .chars ['\n'] <| .lines hextensions <|
      .choice hprecision hchoice <| .lines hdefines <| .placeholder hbody .nil
  rw [renderSkeleton, skeletonItems_skeleton]
  refine Eq.trans hrenders (congrArg Except.ok ?_)
  have hmark : String.ofList ['#', 'v', 'e', 'r', 's', 'i', 'o', 'n', ' '] = "#version " := rfl
  have hfeed : String.ofList ['\n'] = "\n" := rfl
  simp only [headLines, Builtin.ofLines_cons, Builtin.ofLines_append, String.append_assoc, hdefault,
    hmark, hfeed, SkeletonValue.render, String.append_empty]

/-! ## Sources -/

section Process

variable (pool : SymbolPool) (settings : Settings) (defines extensions : List String)

/-- The expansion of bodies in a library, with the definitions that hold there. -/
lemma exists_expandBody (lib : Library) :
    ∃ (defined : String → Bool) (lines : List String), ∀ body,
      expandBody pool lib body defines = (resolveIncludes lib defined body, lines) :=
  ⟨_, _, fun _ => rfl⟩

/-- The source of a body is what the skeleton is rendered to. There is no problem but missing files. -/
lemma process_of_renderSkeleton (lib : Library) {body source : String}
    {expanded : Expansion × List String} (hexpanded : expandBody pool lib body defines = expanded)
    (hrendered : renderSkeleton ((lib.text? skeletonFile).getD "") (skeletonScope settings
      (Text.sortUnique extensions) expanded.2 expanded.1.text) = .ok source) :
    process pool lib settings body defines extensions =
      { source
        diagnostics := expanded.1.missing.map .unresolvedInclude
        journal := expanded.1.missing.map .missingFile } := by
  subst hexpanded
  unfold process prepare
  simp only [hrendered]

/-- The skeleton of the built-in library. -/
lemma text?_skeletonFile : ({} : Library).text? skeletonFile = some Builtin.skeleton := rfl

/-- **The source of a body**: the lines of the skeleton, the definitions among them, and the body with
its includes resolved. There is no problem but missing files. -/
theorem process_eq (body : String) :
    process pool {} settings body defines extensions =
      let expanded := expandBody pool {} body defines
      { source := Builtin.ofLines (headLines settings (Text.sortUnique extensions) expanded.2
          expanded.1.text) ++ expanded.1.text
        diagnostics := expanded.1.missing.map .unresolvedInclude
        journal := expanded.1.missing.map .missingFile } := by
  refine process_of_renderSkeleton pool settings defines extensions {} rfl ?_
  rw [text?_skeletonFile, Option.getD_some]
  exact renderSkeleton_skeleton settings _ _ _

/-- A closed body becomes a source without any problem. -/
theorem process_diagnostics {body : String} (h : Closed {} body.toList) :
    (process pool {} settings body defines extensions).diagnostics = [] := by
  obtain ⟨defined, lines, hexpand⟩ := exists_expandBody pool defines {}
  rw [process_eq, hexpand]
  simp only [missing_resolveIncludes h, List.map_nil]

/-- A plain block between two line feeds of a body is a block of the source. -/
theorem infix_process (before after : String) {block : String} (h : IsPlain block) :
    block.toList <:+: (process pool {} settings (before ++ "\n" ++ (block ++ "\n" ++ after)) defines
      extensions).source.toList := by
  obtain ⟨defined, lines, hexpand⟩ := exists_expandBody pool defines {}
  have hblock : block.toList <:+: (resolveIncludes {} defined
      (before ++ "\n" ++ (block ++ "\n" ++ after))).text.toList :=
    infix_resolveIncludes before after h
  rw [process_eq, hexpand]
  refine hblock.trans ?_
  simp only
  rw [String.toList_append]
  exact (List.suffix_append _ _).isInfix

end Process

end Source

end SceneShading
