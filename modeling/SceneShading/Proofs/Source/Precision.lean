import SceneShading.Proofs.Source.Defined
import SceneShading.Proofs.Source.Omission

/-!
# The words that a precision is looked for in

A source is searched for three words in a row that declare a precision, wherever they stand: a comment is
searched like code. So what is written between the lines of a source may make a difference to the default
precision. It does not if it starts with a word that no precision has and does not name a precision
itself, and if the code behind it starts with an assignment (`SamePrecision.assignment`).

Words are those of the lines (`sourceWords_split`), and lines that are no include lines are expanded to
themselves (`exists_lines_resolveIncludes`). So two bodies that differ in such lines are alike in declaring
a precision if the words of these lines are (`declaresPrecision_text`).
-/

namespace SceneShading.Source

open Text

/-! ## Words -/

/-- The character stands between two words of a source. -/
def isSeparator (c : Char) : Bool := isBlank c || c == ';'

/-- The words of a source. -/
def sourceWords (source : String) : List String := tokens isSeparator source

/-- The words of a text around a separator are those of its two sides. -/
lemma sourceWords_around {c : Char} (hc : isSeparator c = true) (a b : List Char) :
    sourceWords (String.ofList (a ++ c :: b)) =
      sourceWords (String.ofList a) ++ sourceWords (String.ofList b) :=
  tokens_around hc a b

/-- A text in two parts with a separator between them. -/
lemma sourceWords_append {a b separator : String} {c : Char} (hc : isSeparator c = true)
    (hseparator : separator.toList = [c]) :
    sourceWords (a ++ separator ++ b) = sourceWords a ++ sourceWords b := by
  have htext : a ++ separator ++ b = String.ofList (a.toList ++ c :: b.toList) := by
    apply String.toList_injective
    simp [hseparator]
  rw [htext, sourceWords_around hc, String.ofList_toList, String.ofList_toList]

/-- The words of texts joined by line feeds are the words of the texts. -/
lemma sourceWords_intercalate (texts : List String) :
    sourceWords ("\n".intercalate texts) = texts.flatMap sourceWords := by
  induction texts with
  | nil => rfl
  | cons text texts ih =>
    cases texts with
    | nil => rw [String.intercalate_singleton, List.flatMap_singleton]
    | cons next texts =>
      have hfeed : ("\n" : String).toList = ['\n'] := by decide
      rw [String.intercalate_cons_cons, sourceWords_append rfl hfeed, ih]
      rfl

/-- The words of lines that each end with a line feed are the words of the lines. -/
lemma sourceWords_flatMap (lines : List (List Char)) :
    sourceWords (String.ofList (lines.flatMap (· ++ ['\n']))) =
      lines.flatMap fun line => sourceWords (String.ofList line) := by
  induction lines with
  | nil => rfl
  | cons line lines ih =>
    rw [List.flatMap_cons, List.flatMap_cons, List.append_assoc, List.singleton_append,
      sourceWords_around rfl, ih]

/-- The words of a text are those of its lines. -/
lemma sourceWords_split (text : List Char) :
    ((split (· == '\n') text).map dropReturn).flatMap (fun line => sourceWords (String.ofList line)) =
      sourceWords (String.ofList text) := by
  have hreturns : ((split (· == '\n') text).map dropReturn).flatMap
      (fun line => sourceWords (String.ofList line)) =
        (split (· == '\n') text).flatMap fun line => sourceWords (String.ofList line) := by
    rw [List.flatMap_map]
    exact List.flatMap_congr fun line _ => tokens_dropReturn rfl line
  rw [hreturns, ← sourceWords_flatMap, flatMap_split, sourceWords_around rfl]
  exact List.append_nil _

/-- A name or a type: one word of a source, and not the one that declares a precision. -/
def IsTerm (text : String) : Prop :=
  text ≠ "" ∧ (∀ c ∈ text.toList, ¬isSeparator c = true) ∧ text ≠ "precision"

-- the characters of the text are checked, and not all characters that there are
instance (text : String) : Decidable (IsTerm text) :=
  haveI : Decidable (∀ c ∈ text.toList, ¬isSeparator c = true) := List.decidableBAll _ _
  inferInstanceAs (Decidable (_ ∧ _ ∧ _))

/-- A term is its own only word. -/
lemma IsTerm.sourceWords_eq {text : String} (h : IsTerm text) : sourceWords text = [text] :=
  tokens_of_not_cut h.1 h.2.1

/-- A term stands on one line. -/
lemma IsTerm.not_mem {text : String} (h : IsTerm text) : '\n' ∉ text.toList ∧ '\r' ∉ text.toList :=
  ⟨fun hmem => h.2.1 _ hmem rfl, fun hmem => h.2.1 _ hmem rfl⟩

/-! ## Precisions in words -/

variable {w : String} {ws ws' vs vs' note : List String}

/-- The word is none of those that declare a precision. -/
def IsInert (w : String) : Prop := w ∉ ["precision", "highp", "mediump", "lowp", "float"]

instance (w : String) : Decidable (IsInert w) := inferInstanceAs (Decidable (_ ∉ _))

/-- Words that declare a precision are none of them inert. -/
lemma isPrecision_of_isInert {a b c : String} (h : IsInert a ∨ IsInert b ∨ IsInert c) :
    isPrecision a b c = false := by
  simp only [IsInert, List.mem_cons, List.not_mem_nil, or_false, not_or] at h
  unfold isPrecision
  rcases h with h | h | h <;> simp [h]

/-- An inert word stands in no precision, so that what is before it and what is behind it are searched
apart. -/
lemma hasPrecision_around (h : IsInert w) (ws ws' : List String) :
    hasPrecision (ws ++ w :: ws') = (hasPrecision ws || hasPrecision ws') := by
  have hfirst : ∀ ws' : List String, hasPrecision (w :: ws') = hasPrecision ws' := by
    intro ws'
    match ws' with
    | [] => rfl
    | [_] => rfl
    | b :: c :: r => rw [hasPrecision, isPrecision_of_isInert (.inl h), Bool.false_or]
  have hsecond : ∀ (a : String) (ws' : List String), hasPrecision (a :: w :: ws') = hasPrecision ws' := by
    intro a ws'
    match ws' with
    | [] => rfl
    | c :: r => rw [hasPrecision, isPrecision_of_isInert (.inr (.inl h)), Bool.false_or, hfirst]
  induction ws with
  | nil => exact hfirst ws'
  | cons a ws ih =>
    match ws with
    | [] => exact hsecond a ws'
    | [b] =>
      have hlast : isPrecision a b w = false := isPrecision_of_isInert (.inr (.inr h))
      change (isPrecision a b w || hasPrecision (b :: w :: ws')) = _
      rw [hlast, Bool.false_or, hsecond]
      rfl
    | b :: c :: r =>
      change (isPrecision a b c || hasPrecision (b :: c :: r ++ w :: ws')) = _
      rw [ih, ← Bool.or_assoc]
      rfl

/-- A precision starts with its word. -/
lemma hasPrecision_append_of_not_mem (h : "precision" ∉ ws) (ws' : List String) :
    hasPrecision (ws ++ ws') = hasPrecision ws' := by
  induction ws with
  | nil => rfl
  | cons a ws ih =>
    rw [List.mem_cons, not_or] at h
    obtain ⟨ha, hws⟩ := h
    rw [List.cons_append, ← ih hws]
    match ws ++ ws' with
    | [] => rfl
    | [_] => rfl
    | b :: c :: r =>
      have hfirst : isPrecision a b c = false := by simp [isPrecision, Ne.symm ha]
      rw [hasPrecision, hfirst, Bool.false_or]

/-- A precision ends with the word for floating point numbers. -/
lemma hasPrecision_append_singleton (h : w ≠ "float") (ws : List String) :
    hasPrecision (ws ++ [w]) = hasPrecision ws := by
  induction ws with
  | nil => rfl
  | cons a ws ih =>
    match ws with
    | [] => rfl
    | [b] =>
      have hlast : isPrecision a b w = false := by simp [isPrecision, h]
      change (isPrecision a b w || false) = false
      rw [hlast, Bool.or_false]
    | b :: c :: r =>
      change (isPrecision a b c || hasPrecision (b :: c :: r ++ [w])) = _
      rw [ih]
      rfl

/-- The words can stand for the others, whatever is before and behind them: there is a precision with
the ones if there is one with the others. -/
def SamePrecision (ws ws' : List String) : Prop :=
  ∀ before after, hasPrecision (before ++ (ws ++ after)) = hasPrecision (before ++ (ws' ++ after))

namespace SamePrecision

lemma refl (ws : List String) : SamePrecision ws ws := fun _ _ => rfl

/-- Words behind words. -/
lemma append (h : SamePrecision ws ws') (hv : SamePrecision vs vs') :
    SamePrecision (ws ++ vs) (ws' ++ vs') := by
  intro before after
  calc hasPrecision (before ++ (ws ++ vs ++ after))
      = hasPrecision (before ++ (ws ++ (vs ++ after))) := by rw [List.append_assoc]
    _ = hasPrecision (before ++ (ws' ++ (vs ++ after))) := h before (vs ++ after)
    _ = hasPrecision (before ++ ws' ++ (vs ++ after)) := by rw [List.append_assoc]
    _ = hasPrecision (before ++ ws' ++ (vs' ++ after)) := hv (before ++ ws') after
    _ = hasPrecision (before ++ (ws' ++ vs' ++ after)) := by simp only [List.append_assoc]

/-- The words of entries that can stand for one another. -/
lemma flatMap {α β : Type} {f : α → List String} {f' : β → List String} {as : List α} {bs : List β}
    (h : List.Forall₂ (fun a b => SamePrecision (f a) (f' b)) as bs) :
    SamePrecision (as.flatMap f) (bs.flatMap f') := by
  induction h with
  | nil => exact .refl []
  | cons hfirst _ ih =>
    rw [List.flatMap_cons, List.flatMap_cons]
    exact hfirst.append ih

/-- An assignment with a note before it can stand for the assignment: the mark of the note and the sign
of the assignment are inert, and between them no precision starts and no precision ends. -/
lemma assignment {mark target : String} (hmark : IsInert mark) (hnote : "precision" ∉ note)
    (htarget : target ≠ "float") (ws : List String) :
    SamePrecision (mark :: note ++ target :: "=" :: ws) (target :: "=" :: ws) := by
  intro before after
  have hequals : IsInert "=" := by decide
  have hbehind : hasPrecision (target :: "=" :: (ws ++ after)) = hasPrecision (ws ++ after) :=
    hasPrecision_around hequals [target] (ws ++ after)
  calc hasPrecision (before ++ (mark :: note ++ target :: "=" :: ws ++ after))
      = hasPrecision (before ++ mark :: (note ++ target :: "=" :: (ws ++ after))) := by
        simp only [List.cons_append, List.append_assoc]
    _ = (hasPrecision before || hasPrecision (ws ++ after)) := by
        rw [hasPrecision_around hmark, hasPrecision_append_of_not_mem hnote, hbehind]
    _ = (hasPrecision (before ++ [target]) || hasPrecision (ws ++ after)) := by
        rw [hasPrecision_append_singleton htarget]
    _ = hasPrecision (before ++ [target] ++ "=" :: (ws ++ after)) :=
        (hasPrecision_around hequals _ _).symm
    _ = hasPrecision (before ++ (target :: "=" :: ws ++ after)) := by
        simp only [List.append_assoc, List.cons_append, List.nil_append]

end SamePrecision

/-! ## Precisions in bodies -/

variable {lib : Library} {defined : String → Bool}

/-- The words of an expansion are those of its lines. -/
lemma declaresPrecision_text (e : Expansion) : declaresPrecision e.text =
    hasPrecision (e.lines.flatMap fun line => sourceWords (String.ofList line)) := by
  rw [← sourceWords_flatMap]
  rfl

/-- Lines that are no include lines stand behind what the lines before them are expanded to. -/
lemma exists_lines_resolveIncludes (lib : Library) (defined : String → Bool)
    (before : List (List Char)) :
    ∃ front, ∀ (body : String) (lines : List (List Char)),
      linesOf body.toList = before ++ lines → (∀ line ∈ lines, '#' ∉ line) →
        (resolveIncludes lib defined body).lines = front ++ lines := by
  let expandFile := expand lib defined lib.files.length
  let front := before.foldl (expandLine lib defined expandFile) {}
  refine ⟨front.lines, fun body lines hbody hlines => ?_⟩
  rw [resolveIncludes, expand, hbody, List.foldl_append, foldl_expandLine_of_not_mem hlines]

/-- Two bodies whose last lines are no include lines and can stand for one another are alike in declaring
a precision. -/
lemma declaresPrecision_resolveIncludes (before : List (List Char)) {ls ls' : List (List Char)}
    {body body' : String}
    (hbody : linesOf body.toList = before ++ ls) (hbody' : linesOf body'.toList = before ++ ls')
    (hls : ∀ line ∈ ls, '#' ∉ line) (hls' : ∀ line ∈ ls', '#' ∉ line)
    (hwords : SamePrecision (ls.flatMap fun line => sourceWords (String.ofList line))
      (ls'.flatMap fun line => sourceWords (String.ofList line))) :
    declaresPrecision (resolveIncludes lib defined body).text =
      declaresPrecision (resolveIncludes lib defined body').text := by
  obtain ⟨front, hfront⟩ := exists_lines_resolveIncludes lib defined before
  rw [declaresPrecision_text, declaresPrecision_text, hfront body ls hbody hls,
    hfront body' ls' hbody' hls', List.flatMap_append, List.flatMap_append]
  have hlast := hwords (front.flatMap fun line => sourceWords (String.ofList line)) []
  rwa [List.append_nil, List.append_nil] at hlast

end SceneShading.Source
