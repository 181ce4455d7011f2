import Mathlib.Tactic
import SceneShading.Proofs.Codegen.Collection
import SceneShading.Proofs.Codegen.Compilation
import SceneShading.Proofs.Source.Defined

/-!
# The function that blends morph targets

Morphs share a type, so the first one that a walk comes to brings the function that all of them call,
with a parameter for each of its own targets. What a source declares stands before `main`
(`CompiledStage.fileScope`). Library files, definitions and declarations of variables have no line
there that begins like the morph function, so the lines that do are the first lines of the functions
that the nodes bring (`Graph.morphDeclarations_compileStage`). That is one line or none.
-/

namespace SceneShading

open Source Text

/-! ## Openings -/

/-- The line that `main` begins with. -/
def mainLine : List Char := "void main() \x7b".toList

/-- How the declaration of the morph function begins. -/
def morphMark : List Char := "vec3 morphTransform(".toList

/-- The number of parameters of the function that a line declares. They stand between its first
brackets, with commas between them. -/
def parameterCount (line : List Char) : Nat :=
  ((line.dropWhile (· ≠ '(')).takeWhile (· ≠ ')')).count ',' + 1

/-- The first line of a text. -/
def firstLine (text : String) : List Char := (split (· == '\n') text.toList).headD []

/-- The line begins `main` or the morph function. -/
def isOpening (line : List Char) : Bool := line == mainLine || morphMark.isPrefixOf line

/-- The line has the first letters of a line that begins `main` or the morph function. -/
def IsNearOpening (line : List Char) : Prop := ['v', 'o'] <+: line ∨ ['v', 'e'] <+: line

instance (line : List Char) : Decidable (IsNearOpening line) := inferInstanceAs (Decidable (_ ∨ _))

variable {line other : List Char}

lemma isNearOpening_of_isOpening (h : isOpening line = true) : IsNearOpening line := by
  rcases Bool.or_eq_true_iff.1 h with hmain | hmorph
  · exact .inl (beq_iff_eq.1 hmain ▸ by decide)
  · exact .inr (List.IsPrefix.trans (by decide) (List.isPrefixOf_iff_prefix.1 hmorph))

lemma IsNearOpening.of_dropReturn (h : IsNearOpening (dropReturn line)) : IsNearOpening line := by
  have hprefix : dropReturn line <+: line := by
    rw [dropReturn]
    split
    · exact List.dropLast_prefix line
    · exact List.prefix_rfl
  exact h.imp (·.trans hprefix) (·.trans hprefix)

/-- A line with another first letter does not open anything. -/
lemma not_isNearOpening {c : Char} {rest : List Char} (hc : c ≠ 'v') :
    ¬IsNearOpening (c :: rest) := by
  rintro (h | h) <;> exact hc (List.cons_prefix_cons.1 h).1.symm

/-- An include line does not open anything. -/
lemma not_isNearOpening_of_ofLine? {i : Include} (h : Include.ofLine? line = some i) :
    ¬IsNearOpening line := by
  rintro hopens
  obtain ⟨rest, rfl⟩ : ∃ rest, line = 'v' :: rest := by
    rcases hopens with ⟨rest, rfl⟩ | ⟨rest, rfl⟩ <;> exact ⟨_, rfl⟩
  have htrim : trimStart ('v' :: rest) = 'v' :: rest := by
    rw [trimStart]
    exact List.dropWhile_cons_of_neg (by decide)
  rw [Include.ofLine?, htrim, if_neg] at h
  · cases h
  · rw [List.isPrefixOf_iff_prefix]
    rintro ⟨_, heq⟩
    cases heq

/-- What begins like the morph function opens something. -/
lemma filter_morphMark (lines : List (List Char)) : lines.filter morphMark.isPrefixOf =
    (lines.filter isOpening).filter morphMark.isPrefixOf := by
  rw [List.filter_filter]
  refine List.filter_congr fun line _ => ?_
  rw [isOpening]
  cases morphMark.isPrefixOf line <;> simp

/-! ## Expansions -/

namespace Source

variable {lib : Library} {defined : String → Bool} {p : List Char → Bool}

/-- Lines of a kind that files and includes have none of come out of an expansion as they went in. -/
lemma filter_lines_foldl {expandFile : String → Expansion → Expansion}
    (hinclude : ∀ line i, Include.ofLine? line = some i → p line = false)
    (hfile : ∀ name s, lib.text? name = some s → ∀ e,
      (expandFile s e).lines.filter p = e.lines.filter p) (lines : List (List Char)) (e : Expansion) :
    (lines.foldl (expandLine lib defined expandFile) e).lines.filter p =
      e.lines.filter p ++ lines.filter p := by
  induction lines generalizing e with
  | nil => exact (List.append_nil _).symm
  | cons line lines ih =>
    have hline : (expandLine lib defined expandFile e line).lines.filter p =
        e.lines.filter p ++ [line].filter p := by
      rw [expandLine]
      cases hi : Include.ofLine? line with
      | none => exact List.filter_append _ _
      | some i =>
        have hnone : [line].filter p = [] := List.filter_singleton.trans (by rw [hinclude line i hi]; rfl)
        rw [hnone, List.append_nil]
        simp only
        split
        · rfl
        · cases hs : lib.text? i.file with
          | none => rfl
          | some s => exact hfile i.file s hs _
    rw [List.foldl_cons, ih, hline, List.append_assoc, ← List.filter_append, List.singleton_append]

lemma filter_lines_expand (hinclude : ∀ line i, Include.ofLine? line = some i → p line = false)
    (hlib : ∀ name s, lib.text? name = some s → ∀ line ∈ linesOf s.toList, p line = false)
    (fuel : Nat) {s : String} (hs : ∀ line ∈ linesOf s.toList, p line = false) (e : Expansion) :
    (expand lib defined fuel s e).lines.filter p = e.lines.filter p := by
  induction fuel generalizing s e with
  | zero => rfl
  | succ fuel ih =>
    have hnone : (linesOf s.toList).filter p = [] :=
      List.filter_eq_nil_iff.2 fun line hline => by rw [hs line hline]; exact Bool.false_ne_true
    rw [expand, filter_lines_foldl hinclude (fun name s hname e => ih (hlib name s hname) e), hnone,
      List.append_nil]

/-- The files of the built-in library have no `main` and no morph function. -/
lemma not_isOpening_files :
    ∀ f ∈ Builtin.files, ∀ line ∈ linesOf f.2.toList, isOpening (dropReturn line) = false := by
  have hchecked : ∀ f ∈ Builtin.files, ∀ line ∈ linesOf f.2.toList,
      (!isOpening (dropReturn line)) = true := by
    rw [Builtin.files]
    repeat rw [List.forall_mem_cons]
    refine ⟨?_, ?_, ?_, ?_, ?_, ?_, ?_, ?_, ?_, ?_, List.forall_mem_nil _⟩ <;>
      exact all_linesOf_ofLines (by repeat' constructor) (by decide +kernel)
  simpa only [Bool.not_eq_true'] using hchecked

/-! ## Lines at file scope -/

/-- A definition line is printed on one line, which starts with a number sign. -/
lemma exists_defineLine_of_mem (pool : SymbolPool) {defines : List String} {text : String}
    (h : text ∈ (MacroSet.ofLines pool defines).2.lines (MacroSet.ofLines pool defines).1) :
    ∃ rest, text.toList = '#' :: rest ∧ '\n' ∉ text.toList := by
  obtain ⟨-, hset⟩ := MacroSet.Represents.ofLines pool defines
  obtain ⟨name, value, hlookup, rfl⟩ := hset.mem_lines_iff.1 h
  obtain ⟨line, -, hparsed⟩ := MacroMap.exists_line_of_lookup hlookup
  refine ⟨(defineLine name value).toList.tail, ?_, fun hmem => ?_⟩
  · obtain ⟨ws, -, -, hprinted⟩ := exists_words_of_parseDefineLine hparsed
    rw [hprinted, String.intercalate_cons_cons]
    simp
  · exact absurd (blank_of_mem_defineLine hparsed hmem rfl) (by decide)

/-- Nothing is opened by the lines that stand before a body, if the version and the extensions are on one
line each. -/
lemma not_isNearOpening_headLines (pool : SymbolPool) {settings : Settings}
    (hversion : '\n' ∉ settings.glslVersion.toList) {extensions defines : List String}
    (hextensions : ∀ extension ∈ extensions, ∃ rest, extension.toList = '#' :: rest ∧ '\n' ∉ rest)
    (body : String) {head : String} (hhead : head ∈ headLines settings (sortUnique extensions)
      ((MacroSet.ofLines pool defines).2.lines (MacroSet.ofLines pool defines).1) body) :
    ∀ piece ∈ split (· == '\n') head.toList, ¬IsNearOpening piece := by
  have hsign : ∀ rest : List Char, '\n' ∉ '#' :: rest →
      ∀ piece ∈ split (· == '\n') ('#' :: rest), ¬IsNearOpening piece := by
    intro rest hline piece hpiece
    rw [split_line hline, List.mem_singleton] at hpiece
    exact hpiece ▸ not_isNearOpening (by decide)
  rcases List.mem_cons.1 hhead with rfl | hhead
  · have hlist : ("#version " ++ settings.glslVersion).toList =
        '#' :: ("version ".toList ++ settings.glslVersion.toList) := by simp
    rw [hlist]
    refine hsign _ ?_
    simpa using hversion
  rcases List.mem_append.1 hhead with hhead | hdefine
  · rcases List.mem_append.1 hhead with hextension | hprecision
    · obtain ⟨rest, hlist, hline⟩ := hextensions head (mem_sortUnique.1 hextension)
      rw [hlist]
      exact hsign rest (by simpa using hline)
    · split at hprecision
      · cases hprecision
      · rw [List.mem_singleton.1 hprecision]
        cases settings.precision <;> decide +kernel
  · obtain ⟨rest, hlist, hline⟩ := exists_defineLine_of_mem pool hdefine
    rw [hlist] at hline ⊢
    exact hsign rest hline

/-- Of the lines before the first one that stops, those of a kind are those of the part before the
stop, if nothing of that kind stops there. -/
lemma filter_takeWhile_append {α : Type} [BEq α] [LawfulBEq α] {front behind : List α} {stop : α}
    (hstop : stop ∉ front) (p : α → Bool) :
    ((front ++ stop :: behind).takeWhile (· != stop)).filter p = front.filter p := by
  have hkept : ∀ a ∈ front, (a != stop) = true := by
    intro a ha
    exact bne_iff_ne.2 fun heq => hstop (heq ▸ ha)
  rw [List.takeWhile_append_of_pos hkept, List.takeWhile_cons_of_neg (by simp), List.append_nil]

/-- What is written before a line of a body comes from the part of the body before the line: of a kind
that files and includes have none of, the same lines. -/
lemma exists_lines_expandBody (pool : SymbolPool) (lib : Library) (defines : List String)
    {body : String} {front behind : List (List Char)} {line : List Char}
    (hbody : linesOf body.toList = front ++ line :: behind) (hline : Include.ofLine? line = none) :
    ∃ before after, (expandBody pool lib body defines).1.lines = before ++ line :: after ∧
      ∀ p : List Char → Bool, (∀ line i, Include.ofLine? line = some i → p line = false) →
        (∀ name s, lib.text? name = some s → ∀ line ∈ linesOf s.toList, p line = false) →
          before.filter p = front.filter p := by
  set defined := (MacroSet.ofLines pool defines).2.contains (MacroSet.ofLines pool defines).1
  set fuel := lib.files.length
  have hexpand : (expandBody pool lib body defines).1 =
      (linesOf body.toList).foldl (expandLine lib defined (expand lib defined fuel)) {} := rfl
  set e := front.foldl (expandLine lib defined (expand lib defined fuel)) {} with he
  have hwritten : expandLine lib defined (expand lib defined fuel) e line = e.write line := by
    rw [expandLine, hline]
  obtain ⟨after, hafter⟩ := prefix_lines_foldl (prefix_lines_expand fuel) behind (e.write line)
  refine ⟨e.lines, after, ?_, fun p hinclude hlib => ?_⟩
  · rw [hexpand, hbody, List.foldl_append, List.foldl_cons, ← he, hwritten, ← hafter, Expansion.write,
      List.append_assoc, List.singleton_append]
  · exact filter_lines_foldl hinclude (fun name s hs e =>
      filter_lines_expand hinclude hlib fuel (hlib name s hs) e) front {}

/-- The lines of a source at file scope that begin like the morph function are those of the body before
`main`. -/
lemma filter_takeWhile_process (pool : SymbolPool) {settings : Settings}
    (hversion : '\n' ∉ settings.glslVersion.toList) {extensions : List String}
    (hextensions : ∀ extension ∈ extensions, ∃ rest, extension.toList = '#' :: rest ∧ '\n' ∉ rest)
    (defines : List String) {body : String} {front behind : List (List Char)}
    (hbody : linesOf body.toList = front ++ mainLine :: behind)
    (hfront : mainLine ∉ front.map dropReturn) :
    ((linesOf (process pool {} settings body defines extensions).source.toList).takeWhile
      (· != mainLine)).filter morphMark.isPrefixOf =
        (front.map dropReturn).filter morphMark.isPrefixOf := by
  obtain ⟨before, after, hwritten, hkept⟩ :=
    exists_lines_expandBody pool {} defines hbody (by decide)
  set heads := (headLines settings (sortUnique extensions) (expandBody pool {} body defines).2
    (expandBody pool {} body defines).1.text).flatMap fun head =>
      (split (· == '\n') head.toList).map dropReturn with hheads
  have hreturn : dropReturn mainLine = mainLine := by decide
  have hlines : linesOf (process pool {} settings body defines extensions).source.toList =
      heads ++ before.map dropReturn ++ mainLine :: after.map dropReturn := by
    rw [linesOf_process, hwritten, List.map_append, List.map_cons, hreturn, List.append_assoc]
  have hopenings : (heads ++ before.map dropReturn).filter isOpening =
      (front.map dropReturn).filter isOpening := by
    have hnone : heads.filter isOpening = [] := by
      refine List.filter_eq_nil_iff.2 fun line hline hopens => ?_
      obtain ⟨head, hhead, hline⟩ := List.mem_flatMap.1 hline
      obtain ⟨piece, hpiece, rfl⟩ := List.mem_map.1 hline
      exact not_isNearOpening_headLines pool hversion hextensions _ hhead piece hpiece
        (isNearOpening_of_isOpening hopens).of_dropReturn
    rw [List.filter_append, hnone, List.nil_append, List.filter_map, List.filter_map]
    refine congrArg (List.map dropReturn) (hkept _ (fun line i hi => ?_) fun name s hs => ?_)
    · by_contra hopens
      rw [Bool.not_eq_false] at hopens
      exact not_isNearOpening_of_ofLine? hi (isNearOpening_of_isOpening hopens).of_dropReturn
    · obtain ⟨l, r, hfiles, -⟩ := List.lookup_eq_some_iff.1 hs
      have hlist : Builtin.files = l ++ (name, s) :: r := hfiles
      exact not_isOpening_files (name, s) (hlist ▸ List.mem_append_right _ List.mem_cons_self)
  have hstop : mainLine ∉ heads ++ before.map dropReturn := by
    intro hmem
    have hopens : mainLine ∈ (heads ++ before.map dropReturn).filter isOpening :=
      List.mem_filter.2 ⟨hmem, by decide⟩
    rw [hopenings] at hopens
    exact hfront (List.mem_filter.1 hopens).1
  rw [hlines, filter_takeWhile_append hstop, filter_morphMark, hopenings, ← filter_morphMark]

end Source

/-! ## Functions of nodes -/

namespace Node

variable {n : Node} {d : String}

/-- No node blends more targets than there are weights for. -/
lemma targetCount_le (n : Node) : n.targetCount ≤ maxMorphTargets :=
  (List.takeWhile_sublist _).length_le.trans_eq List.length_range

/-- The parameters for targets, character by character. Texts are taken apart here, since it takes long to
take them apart once they are put together. -/
lemma toList_morphParameters (targets : Nat) : (morphParameters targets).toList =
    (List.range targets).flatMap fun i => (", const in vec3 " ++ targetPin i).toList := by
  rw [morphParameters, String.toList_join, List.flatMap_map]

/-- The body for several targets, character by character. -/
lemma toList_morphBody {targets : Nat} (h : 1 < targets) : (morphBody targets).toList =
    "\tvec3 vecOut = vertex * (1.0 - ( ".toList ++
      " + ".toList.intercalate
        ((List.range targets).map fun i => ("weights[" ++ toString i ++ "]").toList) ++
      "));\n".toList ++ (List.range targets).flatMap (fun i =>
        ("\tvecOut += " ++ targetPin i ++ " * " ++ ("weights[" ++ toString i ++ "]") ++ ";\n").toList) ++
      "\treturn vecOut".toList := by
  unfold morphBody
  rw [if_neg (Nat.not_le.2 h)]
  simp only [String.toList_append, String.toList_intercalate, List.map_map, String.toList_join,
    List.flatMap_map, Function.comp_def]

/-- The first line of the morph function declares a parameter for the weights, one for the vertex, and one
for each target. No other line begins like it. -/
lemma split_morphFunction (n : Node) : ∃ header rest,
    split (· == '\n') n.morphFunction.toList = header :: rest ∧ morphMark <+: header ∧
      '\r' ∉ header ∧ parameterCount header = 2 + max n.targetCount 1 ∧
        ∀ piece ∈ rest, ¬IsNearOpening piece := by
  have hle : max n.targetCount 1 ≤ 4 := Nat.max_le.2 ⟨n.targetCount_le, by decide⟩
  have hpos : 1 ≤ max n.targetCount 1 := Nat.le_max_right _ _
  have hchecked : (∀ header ∈ (split (· == '\n') n.morphFunction.toList).head?, morphMark <+: header ∧
      '\r' ∉ header ∧ parameterCount header = 2 + max n.targetCount 1) ∧
        ∀ piece ∈ (split (· == '\n') n.morphFunction.toList).tail, ¬IsNearOpening piece := by
    unfold morphFunction
    generalize max n.targetCount 1 = targets at hle hpos
    have hlist : ∀ first parameters middle body last : String,
        (first ++ parameters ++ middle ++ body ++ last).toList = first.toList ++ parameters.toList ++
          middle.toList ++ body.toList ++ last.toList := fun _ _ _ _ _ => by
      simp only [String.toList_append]
    simp only [hlist, toList_morphParameters]
    rcases Nat.eq_or_lt_of_le hpos with rfl | hmany
    · decide +kernel
    · rw [toList_morphBody hmany]
      interval_cases targets <;> decide +kernel
  obtain ⟨header, rest, hsplit⟩ :=
    List.exists_cons_of_ne_nil (split_ne_nil (· == '\n') n.morphFunction.toList)
  rw [hsplit] at hchecked
  obtain ⟨hmark, hreturn, hcount⟩ := hchecked.1 header rfl
  exact ⟨header, rest, hsplit, hmark, hreturn, hcount, hchecked.2⟩

/-- A morph brings its function, and any other node an include line, or nothing. -/
lemma functionDeclaration_cases (h : n.functionDeclaration = some d) :
    n.kind = .morph ∧ n.morphFunction = d ∨
      n.kind ≠ .morph ∧ ∃ rest, d.toList = '#' :: rest ∧ '\n' ∉ rest := by
  unfold functionDeclaration at h
  cases hkind : n.kind <;> rw [hkind] at h <;> cases h
  case morph => exact .inl ⟨rfl, rfl⟩
  all_goals exact .inr ⟨nofun, _, rfl, by decide⟩

/-- All extensions of nodes are one. -/
lemma eq_of_mem_extensions (h : d ∈ n.extensions) : d = ShadowConfig.derivativesExtension := by
  unfold extensions at h
  split at h
  · rw [ShadowConfig.extensions] at h
    split at h
    · exact List.mem_singleton.1 h
    · cases h
  · cases h

/-- The type name of morphs is their own. -/
lemma typeName_eq_morph_iff : n.typeName = "Morph" ↔ n.kind = .morph := by
  unfold typeName
  generalize n.kind = kind
  cases kind with
  | morph => simp [NodeKind.typeName]
  | var v => obtain ⟨cls, _, _, _, _⟩ := v; cases cls <;> simp +decide [NodeKind.typeName]
  | output b => cases b <;> simp +decide
  | matrixMult m => obtain ⟨role, _, _, _⟩ := m; cases role <;> simp +decide [NodeKind.typeName]
  | function f => cases f <;> simp +decide
  | texture fetch => cases fetch <;> simp +decide
  | light model => cases model <;> simp +decide
  | _ => simp +decide [NodeKind.typeName]

end Node

/-! ## Bodies -/

/-- The lines of a text as they come out of an expansion, which reads and writes them. -/
def linesWritten (text : String) : List (List Char) :=
  ((split (· == '\n') text.toList).map dropReturn).map dropReturn

/-- A text whose lines are far from opening anything. -/
lemma filter_linesWritten_eq_nil {text : String}
    (h : ∀ piece ∈ split (· == '\n') text.toList, ¬IsNearOpening piece) :
    (linesWritten text).filter isOpening = [] := by
  refine List.filter_eq_nil_iff.2 fun line hline hopens => ?_
  obtain ⟨once, honce, rfl⟩ := List.mem_map.1 hline
  obtain ⟨piece, hpiece, rfl⟩ := List.mem_map.1 honce
  exact h piece hpiece (isNearOpening_of_isOpening hopens).of_dropReturn.of_dropReturn

/-- The first line of the morph function declares it, with as many parameters as there are targets, and
two more. -/
lemma Node.firstLine_morphFunction (n : Node) :
    morphMark.isPrefixOf (firstLine n.morphFunction) = true ∧
      parameterCount (firstLine n.morphFunction) = 2 + max n.targetCount 1 := by
  obtain ⟨header, rest, hsplit, hmark, -, hcount, -⟩ := n.split_morphFunction
  rw [firstLine, hsplit, List.headD_cons]
  exact ⟨List.isPrefixOf_iff_prefix.2 hmark, hcount⟩

/-- Of a function, the first line is left if it is the morph function. -/
lemma filter_linesWritten_function {n : Node} {d : String} (h : n.functionDeclaration = some d) :
    (linesWritten d).filter isOpening = if n.kind = .morph then [firstLine d] else [] := by
  rcases n.functionDeclaration_cases h with ⟨hkind, rfl⟩ | ⟨hkind, rest, hlist, hline⟩
  · obtain ⟨header, rest, hsplit, hmark, hreturn, -, hfar⟩ := n.split_morphFunction
    have hopens : isOpening header = true :=
      Bool.or_eq_true_iff.2 (.inr (List.isPrefixOf_iff_prefix.2 hmark))
    have hnone : (rest.map dropReturn |>.map dropReturn).filter isOpening = [] := by
      refine List.filter_eq_nil_iff.2 fun line hline hopens => ?_
      obtain ⟨once, honce, rfl⟩ := List.mem_map.1 hline
      obtain ⟨piece, hpiece, rfl⟩ := List.mem_map.1 honce
      exact hfar piece hpiece (isNearOpening_of_isOpening hopens).of_dropReturn.of_dropReturn
    rw [if_pos hkind, linesWritten, firstLine, hsplit, List.map_cons, List.map_cons,
      dropReturn_of_not_mem hreturn, dropReturn_of_not_mem hreturn, List.filter_cons_of_pos hopens,
      hnone, List.headD_cons]
  · rw [if_neg hkind]
    refine filter_linesWritten_eq_nil ?_
    rw [hlist, split_line (by simpa using hline)]
    exact List.forall_mem_singleton.2 (not_isNearOpening (by decide))

/-- The declarations of a layout stand on its lines, with empty lines between them. -/
lemma mem_split_layoutDeclarations {declarations : List String} {piece : List Char}
    (h : piece ∈ split (· == '\n') (layoutDeclarations declarations).toList) :
    piece = [] ∨ ∃ d ∈ declarations, piece ∈ split (· == '\n') d.toList := by
  fun_induction layoutDeclarations with
  | case1 => exact .inl (List.mem_singleton.1 h)
  | case2 d => exact .inr ⟨d, List.mem_singleton_self d, h⟩
  | case3 d e r gap ih =>
    have hrest : piece ∈ split (· == '\n') (layoutDeclarations (e :: r)).toList →
        piece = [] ∨ ∃ d' ∈ d :: e :: r, piece ∈ split (· == '\n') d'.toList := by
      intro hpiece
      refine (ih hpiece).imp_right ?_
      rintro ⟨d', hd', hmem⟩
      exact ⟨d', List.mem_cons_of_mem _ hd', hmem⟩
    have hfirst : piece ∈ split (· == '\n') d.toList →
        piece = [] ∨ ∃ d' ∈ d :: e :: r, piece ∈ split (· == '\n') d'.toList :=
      fun hpiece => .inr ⟨d, List.mem_cons_self, hpiece⟩
    have hgap : gap = "\n" ∨ gap = "\n\n" := by
      simp only [gap]
      split
      · exact .inl rfl
      · exact .inr rfl
    rcases hgap with hgap | hgap <;> rw [hgap] at h
    · have hlist : (d ++ "\n" ++ layoutDeclarations (e :: r)).toList =
          d.toList ++ '\n' :: (layoutDeclarations (e :: r)).toList := by simp
      rw [hlist, split_append (by rfl)] at h
      exact (List.mem_append.1 h).elim hfirst hrest
    · have hlist : (d ++ "\n\n" ++ layoutDeclarations (e :: r)).toList =
          d.toList ++ '\n' :: ([] ++ '\n' :: (layoutDeclarations (e :: r)).toList) := by simp
      rw [hlist, split_append (by rfl), split_append (by rfl)] at h
      simp only [List.mem_append, split_nil, List.mem_singleton] at h
      rcases h with h | h | h
      · exact hfirst h
      · exact .inl h
      · exact hrest h

/-- A declaration of a variable on one line opens nothing. -/
lemma Variable.far_globalDeclaration {v : Variable} {d : String} (hd : v.globalDeclaration = some d)
    (htype : '\n' ∉ v.type.toList) (hname : '\n' ∉ v.name.toList) :
    ∀ piece ∈ split (· == '\n') d.toList, ¬IsNearOpening piece := by
  have hsize : ∀ n : Nat, '\n' ∉ Nat.toDigits 10 n := by
    intro n hmem
    have hletter : '\n' ∈ letters (toString n) := List.mem_filter.2 ⟨by simpa using hmem, rfl⟩
    rw [letters_toString] at hletter
    cases hletter
  have hline : '\n' ∉ d.toList ∧ ¬IsNearOpening d.toList := by
    obtain ⟨cls, type, name, value, size⟩ := v
    cases cls <;> cases size <;> cases hd <;>
      simp +decide [IsNearOpening, htype, hname, hsize]
  rw [split_line hline.1]
  exact List.forall_mem_singleton.2 hline.2

namespace Graph

variable {g : Graph} {roots : List NodeId} {settings : Settings} {d : String}

/-- The functions that the nodes of a program bring, as far as they are morph functions. -/
def morphFunctions (g : Graph) (roots : List NodeId) : List String :=
  ((firstByKey Node.typeName [] (g.nodesOf (g.traverse roots))).filter fun n => n.kind = .morph).map
    Node.morphFunction

/-- They are those of morphs that the roots reach. -/
lemma exists_of_mem_morphFunctions (h : d ∈ g.morphFunctions roots) :
    ∃ n ∈ g.nodesOf (g.traverse roots), n.kind = .morph ∧ n.morphFunction = d := by
  obtain ⟨n, hn, rfl⟩ := List.mem_map.1 h
  obtain ⟨hmem, hkind⟩ := List.mem_filter.1 hn
  exact ⟨n, mem_of_mem_firstByKey hmem, of_decide_eq_true hkind, rfl⟩

/-- There is one of them if there is a morph. -/
lemma exists_mem_morphFunctions {n : Node} (hn : n ∈ g.nodesOf (g.traverse roots))
    (hkind : n.kind = .morph) : ∃ d, d ∈ g.morphFunctions roots := by
  obtain ⟨m, hm, hname⟩ := @exists_mem_firstByKey _ Node.typeName _ n hn
  have hmorph : m.kind = .morph :=
    Node.typeName_eq_morph_iff.1 (hname.trans (Node.typeName_eq_morph_iff.2 hkind))
  exact ⟨_, List.mem_map_of_mem (List.mem_filter.2 ⟨hm, decide_eq_true hmorph⟩)⟩

/-- There is one of them at most, since morphs share a type. -/
lemma length_morphFunctions (g : Graph) (roots : List NodeId) :
    (g.morphFunctions roots).length ≤ 1 := by
  rw [morphFunctions, List.length_map]
  have hpairwise := (@pairwise_firstByKey _ Node.typeName [] (g.nodesOf (g.traverse roots))).filter
    fun n => decide (n.kind = .morph)
  have hmorphs : ∀ n ∈ (firstByKey Node.typeName [] (g.nodesOf (g.traverse roots))).filter
      fun n => decide (n.kind = .morph), n.typeName = "Morph" := fun n hn =>
    Node.typeName_eq_morph_iff.2 (of_decide_eq_true (List.mem_filter.1 hn).2)
  generalize (firstByKey Node.typeName [] _).filter _ = morphs at hpairwise hmorphs
  match morphs, hpairwise with
  | [], _ => exact Nat.zero_le _
  | [n], _ => exact Nat.le_refl _
  | n :: m :: rest, hpairwise =>
    have hne := (List.pairwise_cons.1 hpairwise).1 m List.mem_cons_self
    rw [hmorphs n List.mem_cons_self, hmorphs m (List.mem_cons_of_mem _ List.mem_cons_self)] at hne
    exact absurd rfl hne

/-- Texts on lines of their own open what they open one by one. -/
lemma filter_linesWritten_intercalate (texts : List String) :
    (linesWritten ("\n".intercalate texts)).filter isOpening =
      texts.flatMap fun text => (linesWritten text).filter isOpening := by
  cases texts with
  | nil => rfl
  | cons text texts =>
    rw [linesWritten, split_intercalate, List.map_flatMap, List.map_flatMap, List.filter_flatMap]
    rfl

/-- The functions of nodes open the first lines of the morph functions. -/
lemma filter_linesWritten_functions (nodes : List Node) :
    (nodes.filterMap Node.functionDeclaration).flatMap
        (fun d => (linesWritten d).filter isOpening) =
      ((nodes.filter fun n => n.kind = .morph).map Node.morphFunction).map firstLine := by
  induction nodes with
  | nil => rfl
  | cons n nodes ih =>
    rw [List.filterMap_cons, List.filter_cons]
    cases hd : n.functionDeclaration with
    | none =>
      have hkind : n.kind ≠ .morph := by
        intro hkind
        rw [Node.functionDeclaration, hkind] at hd
        cases hd
      simpa [hkind] using ih
    | some d =>
      simp only
      rw [List.flatMap_cons, ih, filter_linesWritten_function hd]
      rcases n.functionDeclaration_cases hd with ⟨hkind, rfl⟩ | ⟨hkind, -⟩
      · simp [hkind]
      · simp [hkind]

/-- Between other parts, `main` begins on a line of its own. -/
lemma toList_intercalate_main {parts rest : List String} (hparts : parts ≠ []) (hrest : rest ≠ []) :
    ("\n".intercalate (parts ++ "void main() \x7b" :: rest)).toList =
      ("\n".intercalate parts).toList ++ '\n' :: (mainLine ++ '\n' :: ("\n".intercalate rest).toList) := by
  have hfeed : "\n".toList = ['\n'] := rfl
  have hmain : "void main() \x7b".toList = mainLine := rfl
  rw [String.intercalate_append_of_ne_nil hparts (List.cons_ne_nil _ _),
    String.intercalate_cons_of_ne_nil hrest]
  simp only [String.toList_append, hfeed, hmain, List.append_assoc, List.singleton_append]

/-- The lines before `main` that open something are the first lines of the morph functions. -/
lemma exists_linesOf_assemble (hlines : ∀ v ∈ g.fileVariables roots,
      '\n' ∉ v.type.toList ∧ '\n' ∉ v.name.toList) (settings : Settings) (main : MainBody) :
    ∃ front behind, linesOf (assemble settings g (g.nodesOf (g.traverse roots)) main).toList =
        front ++ mainLine :: behind ∧
      (front.map dropReturn).filter isOpening = (g.morphFunctions roots).map firstLine := by
  set nodes := g.nodesOf (g.traverse roots) with hnodes
  set parts := "\n" :: globalBlock g.stage nodes ::
    (invariantBlock settings g.stage ++ ["\n", "\n".intercalate (collectFunctions nodes)]) with hparts
  set rest := localBlock g ++ ["\n".intercalate main.lines, "\x7d"] with hrest
  have hassemble : (assemble settings g nodes main).toList =
      ("\n".intercalate parts).toList ++ '\n' :: (mainLine ++ '\n' :: ("\n".intercalate rest).toList) := by
    rw [← toList_intercalate_main (List.cons_ne_nil _ _) (List.append_ne_nil_of_right_ne_nil _
      (List.cons_ne_nil _ _)), assemble]
    simp only [List.append_assoc, List.cons_append, List.nil_append]
  refine ⟨(split (· == '\n') ("\n".intercalate parts).toList).map dropReturn,
    linesOf ("\n".intercalate rest).toList, ?_, ?_⟩
  · have hmain : (split (· == '\n') mainLine).map dropReturn = [mainLine] := by decide
    rw [hassemble, linesOf_append, linesOf_append, hmain]
    rfl
  · have hblank : (linesWritten "\n").filter isOpening = [] := by decide
    have hglobal : (linesWritten (globalBlock g.stage nodes)).filter isOpening = [] := by
      refine filter_linesWritten_eq_nil fun piece hpiece => ?_
      rcases mem_split_layoutDeclarations hpiece with rfl | ⟨d, hd, hpiece⟩
      · decide
      · rw [(orderDeclarations_perm _ _).mem_iff, hnodes, filterMap_globalDeclaration] at hd
        obtain ⟨v, hv, hdeclared⟩ := List.mem_filterMap.1 hd
        exact v.far_globalDeclaration hdeclared (hlines v hv).1 (hlines v hv).2 piece hpiece
    have hinvariant : (invariantBlock settings g.stage).flatMap
        (fun text => (linesWritten text).filter isOpening) = [] := by
      unfold invariantBlock
      split
      · decide
      · rfl
    have hfunctions := filter_linesWritten_functions (firstByKey Node.typeName [] nodes)
    change (linesWritten ("\n".intercalate parts)).filter isOpening = _
    rw [filter_linesWritten_intercalate, hparts, List.flatMap_cons, List.flatMap_cons,
      List.flatMap_append, List.flatMap_cons, List.flatMap_singleton, hblank, hglobal, hinvariant,
      filter_linesWritten_intercalate, collectFunctions, hfunctions]
    rfl

end Graph

/-! ## Sources -/

namespace CompiledStage

/-- The lines of the source at file scope: those before `main`. -/
def fileScope (c : CompiledStage) : List (List Char) :=
  (linesOf c.source.toList).takeWhile (· != mainLine)

/-- The lines at file scope that declare the morph function. -/
def morphDeclarations (c : CompiledStage) : List (List Char) :=
  c.fileScope.filter morphMark.isPrefixOf

end CompiledStage

/-- **A source declares the morph functions that its nodes bring, and no others.** The declarations of
variables and the version have to be on one line each. -/
theorem Graph.morphDeclarations_compileStage {g : Graph} {roots : List NodeId} {settings : Settings}
    (hversion : '\n' ∉ settings.glslVersion.toList) (hlines : ∀ v ∈ g.fileVariables roots,
      '\n' ∉ v.type.toList ∧ '\n' ∉ v.name.toList) (pool : SymbolPool) :
    (compileStage pool {} settings g roots).morphDeclarations =
      (g.morphFunctions roots).map firstLine := by
  set nodes := g.nodesOf (g.traverse roots) with hnodes
  obtain ⟨front, behind, hbody, hopenings⟩ := exists_linesOf_assemble hlines settings
    (MainBody.ofNodes g settings.debugNodes nodes)
  have hmarked : ∀ line ∈ (g.morphFunctions roots).map firstLine,
      morphMark.isPrefixOf line = true := by
    intro line hline
    obtain ⟨d, hd, rfl⟩ := List.mem_map.1 hline
    obtain ⟨n, -, -, rfl⟩ := exists_of_mem_morphFunctions hd
    exact n.firstLine_morphFunction.1
  have hmain : mainLine ∉ front.map dropReturn := by
    intro hmem
    have hopens : mainLine ∈ (front.map dropReturn).filter isOpening :=
      List.mem_filter.2 ⟨hmem, by decide⟩
    rw [hopenings] at hopens
    exact absurd (hmarked _ hopens) (by decide)
  have hextensions : ∀ extension ∈ collectExtensions nodes,
      ∃ rest, extension.toList = '#' :: rest ∧ '\n' ∉ rest := by
    intro extension hextension
    obtain ⟨n, -, hmem⟩ := List.mem_flatMap.1 hextension
    rw [n.eq_of_mem_extensions hmem]
    exact ⟨_, rfl, by decide⟩
  rw [CompiledStage.morphDeclarations, CompiledStage.fileScope, source_compileStage, ← hnodes,
    filter_takeWhile_process pool hversion hextensions _ hbody hmain, filter_morphMark, hopenings,
    List.filter_eq_self.2 hmarked]

end SceneShading
