import Mathlib.Logic.Relation
import SceneShading.Proofs.Source.Process

/-!
# Sources with lines left out

A body that is given again without some of its lines becomes a source without those lines, as long as
none of them is an include line (`process_without`): the includes meet the same files in the same
order, and the skeleton renders the same items around the body. What a source is like with lines left
out is said by rewriting: a line that stands between two line feeds goes away with one of them
(`Text.LeavesOut`), so that leaving out lines of a part is leaving out lines of the whole.

Two things make a difference. The words of the body decide whether the default precision is written,
so both bodies have to be alike there; and a skeleton that repeats over the characters of the body
makes of it what it likes.
-/

namespace SceneShading

/-! ## Texts -/

namespace Text

variable {dropped ls ls' ms ms' : List (List Char)} {a a' b b' : List Char}

/-- One of the dropped lines, which stands between two line feeds, is left out. -/
def LeavesOut (dropped : List (List Char)) (s s' : List Char) : Prop :=
  ∃ before line after, line ∈ dropped ∧ s = before ++ '\n' :: (line ++ '\n' :: after) ∧
    s' = before ++ '\n' :: after

/-- Some of the dropped lines are left out. -/
def Without (dropped : List (List Char)) : List Char → List Char → Prop :=
  Relation.ReflTransGen (LeavesOut dropped)

/-- What is left out of a part is left out of the whole. -/
lemma Without.around (before after : List Char) (h : Without dropped a a') :
    Without dropped (before ++ (a ++ after)) (before ++ (a' ++ after)) := by
  induction h with
  | refl => exact .refl
  | tail _ hstep ih =>
    obtain ⟨front, line, back, hline, rfl, rfl⟩ := hstep
    refine ih.tail ⟨before ++ front, line, back ++ after, hline, ?_, ?_⟩
    · simp only [List.append_assoc, List.cons_append]
    · simp only [List.append_assoc, List.cons_append]

/-- Lines are left out of both parts of a text. -/
lemma Without.append (ha : Without dropped a a') (hb : Without dropped b b') :
    Without dropped (a ++ b) (a' ++ b') := by
  have hfirst : Without dropped (a ++ b) (a' ++ b) := by simpa using ha.around [] b
  have hsecond : Without dropped (a' ++ b) (a' ++ b') := by simpa using hb.around a' []
  exact hfirst.trans hsecond

/-- Leaving out lines does not empty a text. -/
lemma Without.isEmpty_eq (h : Without dropped a a') : a'.isEmpty = a.isEmpty := by
  induction h with
  | refl => rfl
  | tail _ hstep ih =>
    obtain ⟨before, line, after, -, rfl, rfl⟩ := hstep
    rw [← ih]
    cases before <;> rfl

/-- The second lines are the first ones without some of the dropped lines. -/
inductive Omits (dropped : List (List Char)) : List (List Char) → List (List Char) → Prop
  | nil : Omits dropped [] []
  | keep {ls ls' : List (List Char)} (line : List Char) (h : Omits dropped ls ls') :
    Omits dropped (line :: ls) (line :: ls')
  | skip {ls ls' : List (List Char)} {line : List Char} (hline : line ∈ dropped)
    (h : Omits dropped ls ls') : Omits dropped (line :: ls) ls'

lemma Omits.refl (ls : List (List Char)) : Omits dropped ls ls := by
  induction ls with
  | nil => exact .nil
  | cons line _ ih => exact .keep line ih

lemma Omits.append (h : Omits dropped ls ls') (hm : Omits dropped ms ms') :
    Omits dropped (ls ++ ms) (ls' ++ ms') := by
  induction h with
  | nil => exact hm
  | keep line _ ih => exact .keep line ih
  | skip hline _ ih => exact .skip hline ih

/-- Dropped lines are omitted. -/
lemma Omits.skipAll (h : ls ⊆ dropped) (ms : List (List Char)) : Omits dropped (ls ++ ms) ms := by
  induction ls with
  | nil => exact .refl ms
  | cons line ls ih =>
    obtain ⟨hline, hrest⟩ := List.cons_subset.1 h
    exact .skip hline (ih hrest)

/-- Lines that are omitted are left out of the text of the lines. -/
lemma Omits.without (h : Omits dropped ls ls') (before : List Char) :
    Without dropped (before ++ '\n' :: ls.flatMap (· ++ ['\n']))
      (before ++ '\n' :: ls'.flatMap (· ++ ['\n'])) := by
  induction h generalizing before with
  | nil => exact .refl
  | keep line _ ih =>
    have hnext := ih (before ++ '\n' :: line)
    simpa only [List.flatMap_cons, List.append_assoc, List.cons_append, List.nil_append] using hnext
  | @skip ls ls' line hline _ ih =>
    refine .head ⟨before, line, ls.flatMap (· ++ ['\n']), hline, ?_, rfl⟩ (ih before)
    simp only [List.flatMap_cons, List.append_assoc, List.cons_append, List.nil_append]

end Text

namespace Source

open Text

variable {lib : Library} {defined : String → Bool} {dropped ls ls' : List (List Char)}

/-! ## Expansions -/

/-- The second expansion goes on like the first one, without some of the dropped lines; both start
with an empty line. -/
structure Expansion.Omits (dropped : List (List Char)) (e e' : Expansion) : Prop where
  lines : ∃ ls ls', e.lines = [] :: ls ∧ e'.lines = [] :: ls' ∧ Text.Omits dropped ls ls'
  met : e'.met = e.met
  missing : e'.missing = e.missing

/-- The same line is written behind both. -/
lemma Expansion.Omits.write {e e' : Expansion} (h : e.Omits dropped e') (line : List Char) :
    (e.write line).Omits dropped (e'.write line) := by
  obtain ⟨⟨ls, ls', hls, hls', homits⟩, hmet, hmissing⟩ := h
  refine ⟨⟨ls ++ [line], ls' ++ [line], ?_, ?_, homits.append (.refl [line])⟩, hmet, hmissing⟩
  · rw [Expansion.write, hls, List.cons_append]
  · rw [Expansion.write, hls', List.cons_append]

/-- A dropped line is written behind the first one only. -/
lemma Expansion.Omits.writeDropped {e e' : Expansion} (h : e.Omits dropped e') {line : List Char}
    (hline : line ∈ dropped) : (e.write line).Omits dropped e' := by
  obtain ⟨⟨ls, ls', hls, hls', homits⟩, hmet, hmissing⟩ := h
  have hskip : Text.Omits dropped (ls ++ [line]) (ls' ++ []) := homits.append (.skip hline .nil)
  rw [List.append_nil] at hskip
  refine ⟨⟨ls ++ [line], ls', ?_, hls', hskip⟩, hmet, hmissing⟩
  rw [Expansion.write, hls, List.cons_append]

/-- The same line goes on both, if files do. -/
lemma omits_expandLine {expandFile : String → Expansion → Expansion}
    (hfile : ∀ s e e', e.Omits dropped e' → (expandFile s e).Omits dropped (expandFile s e'))
    (line : List Char) {e e' : Expansion} (h : e.Omits dropped e') :
    (expandLine lib defined expandFile e line).Omits dropped
      (expandLine lib defined expandFile e' line) := by
  unfold expandLine
  cases Include.ofLine? line with
  | none => exact h.write line
  | some i =>
    simp only [h.met]
    split
    · exact h
    · have hmeet : (e.meetFile i.file).Omits dropped (e'.meetFile i.file) :=
        ⟨h.lines, congrArg (· ++ [i.file]) h.met, h.missing⟩
      cases lib.text? i.file with
      | none => exact ⟨hmeet.lines, hmeet.met, congrArg (· ++ [i.file]) hmeet.missing⟩
      | some s => exact hfile s _ _ hmeet

/-- Lines without some of the dropped ones go on alike, since no dropped line is an include line. -/
lemma omits_foldl {expandFile : String → Expansion → Expansion}
    (hfile : ∀ s e e', e.Omits dropped e' → (expandFile s e).Omits dropped (expandFile s e'))
    (hdropped : ∀ line ∈ dropped, Include.ofLine? line = none) (hls : Text.Omits dropped ls ls')
    {e e' : Expansion} (h : e.Omits dropped e') :
    (ls.foldl (expandLine lib defined expandFile) e).Omits dropped
      (ls'.foldl (expandLine lib defined expandFile) e') := by
  induction hls generalizing e e' with
  | nil => exact h
  | keep line _ ih => exact ih (omits_expandLine hfile line h)
  | @skip ls _ line hline _ ih =>
    have hwritten : expandLine lib defined expandFile e line = e.write line := by
      rw [expandLine, hdropped line hline]
    rw [List.foldl_cons, hwritten]
    exact ih (h.writeDropped hline)

/-- The expansion of a file goes on alike behind both. -/
lemma omits_expand (hdropped : ∀ line ∈ dropped, Include.ofLine? line = none) (fuel : Nat)
    (s : String) {e e' : Expansion} (h : e.Omits dropped e') :
    (expand lib defined fuel s e).Omits dropped (expand lib defined fuel s e') := by
  induction fuel generalizing s e e' with
  | zero => exact h
  | succ fuel ih =>
    exact omits_foldl (fun t _ _ ht => ih t ht) hdropped (.refl (linesOf s.toList)) h

/-- A body without some of the dropped lines has the expansion without these lines. -/
lemma omits_resolveIncludes (hdropped : ∀ line ∈ dropped, Include.ofLine? line = none)
    {body body' : String} (hbody : linesOf body.toList = [] :: ls)
    (hbody' : linesOf body'.toList = [] :: ls') (hls : Text.Omits dropped ls ls') :
    (resolveIncludes lib defined body).Omits dropped (resolveIncludes lib defined body') := by
  have hfirst : (({} : Expansion).write []).Omits dropped (({} : Expansion).write []) :=
    ⟨⟨[], [], rfl, rfl, .nil⟩, rfl, rfl⟩
  unfold resolveIncludes expand
  rw [hbody, hbody', List.foldl_cons, List.foldl_cons]
  exact omits_foldl (fun s _ _ hs => omits_expand hdropped _ s hs) hdropped hls hfirst

/-- The text of an expansion without lines is the text without these lines. -/
lemma Expansion.Omits.without {e e' : Expansion} (h : e.Omits dropped e') :
    Without dropped e.text.toList e'.text.toList := by
  obtain ⟨⟨ls, ls', hls, hls', homits⟩, -, -⟩ := h
  unfold Expansion.text
  rw [String.toList_ofList, String.toList_ofList, hls, hls']
  exact homits.without []

/-! ## Skeletons -/

mutual

/-- No repetition of the item is over the value of the name. -/
def SkeletonItem.keeps (name : String) : SkeletonItem → Bool
  | .char _ => true
  | .placeholder _ => true
  | .loop _ list body other => list != name && allKeep name body && allKeep name other
  | .choice _ body other => allKeep name body && allKeep name other

/-- No repetition of the items is over the value of the name. -/
def allKeep (name : String) : List SkeletonItem → Bool
  | [] => true
  | item :: r => item.keeps name && allKeep name r

end

/-- The second value is the first one, or its text without some of the dropped lines. -/
inductive SkeletonValue.Omits (dropped : List (List Char)) : SkeletonValue → SkeletonValue → Prop
  | refl (v : SkeletonValue) : SkeletonValue.Omits dropped v v
  | text {s s' : String} (h : Without dropped s.toList s'.toList) :
    SkeletonValue.Omits dropped (.text s) (.text s')

lemma SkeletonValue.Omits.render {v v' : SkeletonValue} (h : v.Omits dropped v') :
    Without dropped v.render.toList v'.render.toList := by
  cases h with
  | refl => exact .refl
  | text h => exact h

lemma SkeletonValue.Omits.holds_eq {v v' : SkeletonValue} (h : v.Omits dropped v') :
    v'.holds = v.holds := by
  cases h with
  | refl => rfl
  | @text s s' h =>
    have hempty : ∀ s : String, s.isEmpty = s.toList.isEmpty := by
      intro s
      rw [Bool.eq_iff_iff]
      simp
    change (!s'.isEmpty) = !s.isEmpty
    rw [hempty, hempty, h.isEmpty_eq]

/-- The scopes differ in lines that the body of the second one omits. -/
structure SkeletonScope.Omits (dropped : List (List Char)) (scope scope' : SkeletonScope) : Prop where
  others : ∀ name ≠ "body", scope'.lookup name = scope.lookup name
  body : Option.Rel (SkeletonValue.Omits dropped) (scope.lookup "body") (scope'.lookup "body")

/-- Every name has values that differ in omitted lines. -/
lemma SkeletonScope.Omits.lookup {scope scope' : SkeletonScope} (h : scope.Omits dropped scope')
    (name : String) :
    Option.Rel (SkeletonValue.Omits dropped) (scope.lookup name) (scope'.lookup name) := by
  by_cases hname : name = "body"
  · exact hname ▸ h.body
  · rw [h.others name hname]
    cases scope.lookup name with
    | none => exact .none
    | some v => exact .some (.refl v)

/-- A name is given one value in both scopes. -/
lemma SkeletonScope.Omits.cons {scope scope' : SkeletonScope} (h : scope.Omits dropped scope')
    (name : String) (v : SkeletonValue) :
    SkeletonScope.Omits dropped ((name, v) :: scope) ((name, v) :: scope') := by
  refine ⟨fun other hother => ?_, ?_⟩
  · rw [List.lookup_cons, List.lookup_cons, h.others other hother]
  · rw [List.lookup_cons, List.lookup_cons]
    cases "body" == name with
    | true => exact .some (.refl v)
    | false => exact h.body

/-- Renderings fail alike, or their texts together differ in omitted lines. -/
inductive RenderOmits (dropped : List (List Char)) :
    Except SkeletonError (List String) → Except SkeletonError (List String) → Prop
  | ok {texts texts' : List String}
    (h : Without dropped (String.join texts).toList (String.join texts').toList) :
    RenderOmits dropped (.ok texts) (.ok texts')
  | error (e : SkeletonError) : RenderOmits dropped (.error e) (.error e)

/-- One rendering before another. -/
lemma RenderOmits.append {first first' rest rest' : Except SkeletonError (List String)}
    (hfirst : RenderOmits dropped first first') (hrest : RenderOmits dropped rest rest') :
    RenderOmits dropped (first >>= fun texts => (texts ++ ·) <$> rest)
      (first' >>= fun texts => (texts ++ ·) <$> rest') := by
  cases hfirst with
  | error e => exact .error e
  | ok hfirst =>
    cases hrest with
    | error e => exact .error e
    | ok hrest =>
      refine .ok ?_
      rw [String.join_append, String.join_append, String.toList_append, String.toList_append]
      exact hfirst.append hrest

/-- Rounds of a repetition. -/
lemma RenderOmits.rounds {round round' : String → Except SkeletonError (List String)}
    (h : ∀ text, RenderOmits dropped (round text) (round' text)) (texts : List String) :
    RenderOmits dropped (List.flatten <$> texts.mapM round)
      (List.flatten <$> texts.mapM round') := by
  induction texts with
  | nil => exact .ok .refl
  | cons text texts ih =>
    have happend := (h text).append ih
    have hcons : ∀ f : String → Except SkeletonError (List String),
        List.flatten <$> (text :: texts).mapM f =
          (f text >>= fun parts => (parts ++ ·) <$> (List.flatten <$> texts.mapM f)) := by
      intro f
      rw [List.mapM_cons]
      cases f text with
      | error e => rfl
      | ok parts => cases texts.mapM f <;> rfl
    rw [hcons, hcons]
    exact happend

mutual

/-- An item that does not repeat over the body renders alike in both scopes. -/
lemma omits_renderItem {scope scope' : SkeletonScope} (hscope : scope.Omits dropped scope') :
    (item : SkeletonItem) → item.keeps "body" = true →
      RenderOmits dropped (renderItem scope item) (renderItem scope' item)
  | .char c, _ => .ok .refl
  | .placeholder name, _ => by
    have hvalue := hscope.lookup name
    unfold renderItem
    revert hvalue
    generalize scope.lookup name = v
    generalize scope'.lookup name = v'
    rintro (hv | _)
    · refine .ok ?_
      simpa using hv.render
    · exact .error _
  | .loop name list body other, h => by
    unfold SkeletonItem.keeps at h
    rw [Bool.and_eq_true_iff, Bool.and_eq_true_iff] at h
    obtain ⟨⟨hlist, hbody⟩, hother⟩ := h
    unfold renderItem
    rw [hscope.others list (bne_iff_ne.1 hlist)]
    have hround : ∀ text, RenderOmits dropped
        (renderItems ((name, .text text) :: scope) body)
        (renderItems ((name, .text text) :: scope') body) :=
      fun text => omits_renderItems (hscope.cons name (.text text)) body hbody
    split
    · exact omits_renderItems hscope other hother
    · exact .rounds hround _
    · exact .error _
    · exact .error _
  | .choice name body other, h => by
    unfold SkeletonItem.keeps at h
    rw [Bool.and_eq_true_iff] at h
    have hholds : (scope'.lookup name).map SkeletonValue.holds =
        (scope.lookup name).map SkeletonValue.holds := by
      have hvalue := hscope.lookup name
      revert hvalue
      generalize scope.lookup name = v
      generalize scope'.lookup name = v'
      rintro (hv | _)
      · exact congrArg some hv.holds_eq
      · rfl
    unfold renderItem
    rw [hholds]
    split
    · exact omits_renderItems hscope body h.1
    · exact omits_renderItems hscope other h.2

/-- Items that do not repeat over the body render alike in both scopes. -/
lemma omits_renderItems {scope scope' : SkeletonScope} (hscope : scope.Omits dropped scope') :
    (items : List SkeletonItem) → allKeep "body" items = true →
      RenderOmits dropped (renderItems scope items) (renderItems scope' items)
  | [], _ => .ok .refl
  | item :: r, h => by
    unfold allKeep at h
    rw [Bool.and_eq_true_iff] at h
    have happend := (omits_renderItem hscope item h.1).append (omits_renderItems hscope r h.2)
    unfold renderItems
    exact happend

end

end Source

/-! ## Sources -/

/-- The skeleton of the library does not repeat over the characters of the body. -/
def Library.KeepsBody (lib : Library) : Prop :=
  ∀ items, Source.skeletonItems ((lib.text? Source.skeletonFile).getD "") = .ok items →
    Source.allKeep "body" items = true

/-- The built-in skeleton repeats over extensions and definitions only. -/
lemma Library.keepsBody_builtin : Library.KeepsBody {} := by
  intro items hitems
  have hskeleton : ((({} : Library).text? Source.skeletonFile).getD "") = Source.Builtin.skeleton :=
    rfl
  rw [hskeleton, Source.skeletonItems_skeleton] at hitems
  cases hitems
  decide

namespace Source

open Text

variable {lib : Library} {dropped ls ls' : List (List Char)}

/-- A skeleton that does not repeat over the body cannot be rendered in either scope, or its sources
differ in omitted lines. -/
lemma omits_renderSkeleton {skeleton : String} {scope scope' : SkeletonScope}
    (hscope : SkeletonScope.Omits dropped (scope ++ .constants) (scope' ++ .constants))
    (hkeeps : ∀ items, skeletonItems skeleton = .ok items → allKeep "body" items = true) :
    (∃ e, renderSkeleton skeleton scope = .error e ∧ renderSkeleton skeleton scope' = .error e) ∨
      ∃ source source', renderSkeleton skeleton scope = .ok source ∧
        renderSkeleton skeleton scope' = .ok source' ∧
          Without dropped source.toList source'.toList := by
  have hrender : ∀ scope, renderSkeleton skeleton scope =
      (skeletonItems skeleton >>= fun items =>
        String.join <$> renderItems (scope ++ .constants) items) := by
    intro scope
    unfold renderSkeleton
    cases skeletonItems skeleton with
    | error e => rfl
    | ok items => rfl
  rw [hrender, hrender]
  cases hitems : skeletonItems skeleton with
  | error e => exact .inl ⟨e, rfl, rfl⟩
  | ok items =>
    have homits := omits_renderItems hscope items (hkeeps items hitems)
    revert homits
    change RenderOmits dropped _ _ → (∃ e, String.join <$> renderItems _ items = .error e ∧
      String.join <$> renderItems _ items = .error e) ∨ ∃ source source',
        String.join <$> renderItems _ items = .ok source ∧
          String.join <$> renderItems _ items = .ok source' ∧ _
    generalize renderItems (scope ++ .constants) items = result
    generalize renderItems (scope' ++ .constants) items = result'
    rintro (hjoined | e)
    · exact .inr ⟨_, _, rfl, rfl, hjoined⟩
    · exact .inl ⟨e, rfl, rfl⟩

/-- The second source comes with the problems of the first one and is without some of its lines. -/
structure Processed.Omits (dropped : List (List Char)) (p p' : Processed) : Prop where
  diagnostics : p'.diagnostics = p.diagnostics
  source : Without dropped p.source.toList p'.source.toList

/-- A body without some of the dropped lines becomes the source without these lines, if none of them
is an include line, both bodies are alike in declaring a precision, and the skeleton does not repeat
over the body. -/
theorem process_without (pool : SymbolPool) (settings : Settings) (defines extensions : List String)
    (hdropped : ∀ line ∈ dropped, Include.ofLine? line = none) (hlib : lib.KeepsBody)
    {body body' : String} (hbody : linesOf body.toList = [] :: ls)
    (hbody' : linesOf body'.toList = [] :: ls') (hls : Text.Omits dropped ls ls')
    (hprecision : declaresPrecision (expandBody pool lib body' defines).1.text =
      declaresPrecision (expandBody pool lib body defines).1.text) :
    (process pool lib settings body defines extensions).Omits dropped
      (process pool lib settings body' defines extensions) := by
  obtain ⟨defined, lines, hexpand⟩ := exists_expandBody pool defines lib
  rw [hexpand, hexpand] at hprecision
  have hexpansion : (resolveIncludes lib defined body).Omits dropped
      (resolveIncludes lib defined body') := omits_resolveIncludes hdropped hbody hbody' hls
  have hmissing := hexpansion.missing
  have htext := hexpansion.without
  unfold process prepare
  rw [hexpand, hexpand]
  simp only at hprecision ⊢
  rw [hmissing]
  generalize (resolveIncludes lib defined body).text = text at htext hprecision
  generalize (resolveIncludes lib defined body').text = text' at htext hprecision
  generalize (resolveIncludes lib defined body).missing = missing
  have hscope : SkeletonScope.Omits dropped
      (skeletonScope settings (Text.sortUnique extensions) lines text ++ SkeletonScope.constants)
      (skeletonScope settings (Text.sortUnique extensions) lines text' ++
        SkeletonScope.constants) := by
    unfold skeletonScope
    rw [hprecision]
    have hlast : SkeletonScope.Omits dropped (("body", .text text) :: SkeletonScope.constants)
        (("body", .text text') :: SkeletonScope.constants) := by
      refine ⟨fun name hname => ?_, .some (.text htext)⟩
      rw [List.lookup_cons, List.lookup_cons, beq_false_of_ne hname]
    exact (((hlast.cons _ _).cons _ _).cons _ _).cons _ _
  rcases omits_renderSkeleton hscope hlib with ⟨e, he, he'⟩ | ⟨source, source', hs, hs', hsource⟩
  · rw [he, he']
    exact ⟨rfl, htext⟩
  · rw [hs, hs']
    exact ⟨rfl, hsource⟩

end Source

end SceneShading
