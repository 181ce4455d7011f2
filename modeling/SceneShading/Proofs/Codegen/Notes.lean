import SceneShading.Proofs.Codegen.Comments
import SceneShading.Proofs.Source.Precision

/-!
# Notes on calls

If they are asked for, a note stands before each call: lines that name the operands which the node is
wired to, with their types. The statements of a graph with notes are those without, each call with its
note (`Graph.statements_annotated`), and the notes are lines of their own that are blank or comments
(`CallNote.IsSpelled.isNoteLine`). So what a graph compiles to with notes is what it compiles to without,
up to such lines (`Graph.Sound.sameCode_compileStage`).

The notes are searched for a precision with the rest of the source. An operand that is spelled with one
word for its name and one for its type (`Operand.IsSpelled`) keeps its notes from declaring one, from
ending one that begins before them, and from beginning one that ends in the call.
-/

namespace SceneShading

open Source

/-! ## Lines of code -/

namespace Source

/-- The line is neither blank nor a comment. -/
def isCode (line : List Char) : Bool :=
  !"//".toList.isPrefixOf line && !line.all Text.isBlank

/-- The lines of a source without the blank ones and those that start as comments. -/
def codeLines (source : String) : List (List Char) := (Text.linesOf source.toList).filter isCode

/-- A text on one line that leaves the code alone: it is empty or a comment, and does not name a
precision. -/
structure IsNoteLine (line : String) : Prop where
  single : '\n' ∉ line.toList ∧ '\r' ∉ line.toList
  inert : line = "" ∨ ∃ rest, line = "//" ++ rest
  words : "precision" ∉ sourceWords line

namespace IsNoteLine

variable {line : String}

/-- A line of a note is one line. -/
lemma lines_eq (h : IsNoteLine line) :
    (Text.split (· == '\n') line.toList).map Text.dropReturn = [line.toList] := by
  rw [Text.split_line h.single.1, List.map_singleton, Text.dropReturn_of_not_mem h.single.2]

/-- A line of a note is no code. -/
lemma isCode_eq (h : IsNoteLine line) : isCode line.toList = false := by
  rcases h.inert with rfl | ⟨rest, rfl⟩
  · rfl
  · have hprefix : "//".toList.isPrefixOf ("//" ++ rest).toList = true := by simp
    rw [isCode, hprefix, Bool.not_true, Bool.false_and]

/-- A line of a note is no include line. -/
lemma ofLine?_eq (h : IsNoteLine line) : Include.ofLine? line.toList = none := by
  rcases h.inert with rfl | ⟨rest, rfl⟩
  · rfl
  · rw [String.toList_append]
    exact ofLine?_slash _

/-- Words behind the mark of a comment. -/
lemma mark (rest : String) (hsingle : '\n' ∉ rest.toList ∧ '\r' ∉ rest.toList)
    (hwords : "precision" ∉ sourceWords rest) : IsNoteLine ("// " ++ rest) := by
  have hmark : "// " ++ rest = "//" ++ " " ++ rest := by rw [String.append_assoc]; rfl
  have hblank : (" " : String).toList = [' '] := by decide
  refine ⟨by simpa using hsingle, .inr ⟨" " ++ rest, by rw [hmark, String.append_assoc]⟩, ?_⟩
  rw [hmark, sourceWords_append rfl hblank, List.mem_append, not_or]
  exact ⟨by decide, hwords⟩

end IsNoteLine

/-- Sources have the same code if the one is the other without lines of notes. -/
lemma codeLines_eq_of_without {notes : List String} (hnotes : ∀ line ∈ notes, IsNoteLine line)
    {source source' : String}
    (h : Text.Without (notes.map String.toList) source.toList source'.toList) :
    codeLines source = codeLines source' := by
  unfold codeLines
  generalize source.toList = s at h
  generalize source'.toList = s' at h
  induction h with
  | refl => rfl
  | tail _ hstep ih =>
    obtain ⟨before, _, after, hmem, rfl, rfl⟩ := hstep
    obtain ⟨line, hline, rfl⟩ := List.mem_map.1 hmem
    have hnote := hnotes line hline
    have hcode : [line.toList].filter isCode = [] := by
      rw [List.filter_cons_of_neg (by rw [hnote.isCode_eq]; exact Bool.false_ne_true), List.filter_nil]
    rw [ih, Text.linesOf_append, Text.linesOf_append, Text.linesOf_append, hnote.lines_eq,
      List.filter_append, List.filter_append, hcode, List.nil_append, List.filter_append]

end Source

/-! ## Operands and notes -/

/-- The name of the operand and its type are a word each. The name is not that of the type of floating
point numbers. -/
structure Operand.IsSpelled (o : Operand) : Prop where
  name : IsTerm o.name
  named : o.name ≠ "float"
  type : ∀ type ∈ o.type, IsTerm type

/-- A target that is whole or a color without alpha is one word, if its operand is spelled. -/
lemma Argument.isTerm_render {target : Argument} (h : target.operand.IsSpelled)
    (hswizzle : target.swizzle = "" ∨ target.swizzle = ".rgb") :
    IsTerm target.render ∧ target.render ≠ "float" := by
  obtain ⟨⟨o, type⟩, swizzle⟩ := target
  obtain ⟨⟨hne, hsolid, hword⟩, hnamed, -⟩ := h
  rcases hswizzle with rfl | rfl
  · rw [render, String.append_empty]
    exact ⟨⟨hne, hsolid, hword⟩, hnamed⟩
  · have hdot : ∀ text : String, '.' ∉ text.toList → o ++ ".rgb" ≠ text := by
      rintro _ hnone rfl
      exact hnone (by simp)
    have hcolor : IsTerm ".rgb" := by decide
    refine ⟨⟨hdot _ (by decide), ?_, hdot _ (by decide)⟩, hdot _ (by decide)⟩
    rw [render, String.toList_append]
    exact List.forall_mem_append.2 ⟨hsolid, hcolor.2.1⟩

namespace CallNote

variable {note : CallNote}

/-- All operands of the note are spelled. -/
def IsSpelled (note : CallNote) : Prop :=
  ∀ operand ∈ note.outputs ++ note.inputs, ∀ o ∈ operand, o.IsSpelled

/-- The line that describes a spelled operand. -/
lemma isNoteLine_describe {operand : Option Operand} (h : ∀ o ∈ operand, o.IsSpelled) :
    IsNoteLine (describe operand) := by
  cases operand with
  | none => exact IsNoteLine.mark "undefined" (by decide) (by decide)
  | some o =>
    obtain ⟨name, type⟩ := o
    obtain ⟨hname, -, htype⟩ := h _ rfl
    have hwords : "precision" ∉ sourceWords name := by
      rw [hname.sourceWords_eq, List.mem_singleton]
      exact Ne.symm hname.2.2
    cases type with
    | none => exact .mark name hname.not_mem hwords
    | some type =>
      have hterm : IsTerm type := htype type rfl
      have hline : describe (some ⟨name, some type⟩) = "// " ++ (type ++ " " ++ name) := by
        simp only [describe, String.append_assoc]
      have hblank : (" " : String).toList = [' '] := by decide
      rw [hline]
      refine .mark _ ?_ ?_
      · simpa [hblank] using And.intro (And.intro hterm.not_mem.1 hname.not_mem.1)
          (And.intro hterm.not_mem.2 hname.not_mem.2)
      · rw [sourceWords_append rfl hblank, hterm.sourceWords_eq, List.mem_append, List.mem_singleton,
          not_or]
        exact ⟨Ne.symm hterm.2.2, hwords⟩

/-- The lines of a spelled note leave the code alone. -/
lemma IsSpelled.isNoteLine (h : note.IsSpelled) (hasArguments : Bool) :
    ∀ line ∈ note.lines hasArguments, IsNoteLine line := by
  have houtputs : ∀ line ∈ note.outputs.map describe, IsNoteLine line := by
    rintro _ hline
    obtain ⟨operand, hoperand, rfl⟩ := List.mem_map.1 hline
    exact isNoteLine_describe (h operand (List.mem_append_left _ hoperand))
  have hinputs : ∀ line ∈ note.inputs.map describe, IsNoteLine line := by
    rintro _ hline
    obtain ⟨operand, hoperand, rfl⟩ := List.mem_map.1 hline
    exact isNoteLine_describe (h operand (List.mem_append_right _ hoperand))
  have hfirst : ∀ line ∈ ["", "// output"], IsNoteLine line := by
    refine List.forall_mem_cons.2 ⟨⟨by decide, .inl rfl, by decide⟩, List.forall_mem_singleton.2 ?_⟩
    exact IsNoteLine.mark "output" (by decide) (by decide)
  refine List.forall_mem_append.2 ⟨List.forall_mem_append.2 ⟨hfirst, houtputs⟩, ?_⟩
  split
  · refine List.forall_mem_cons.2 ⟨?_, hinputs⟩
    exact IsNoteLine.mark "inputs" (by decide) (by decide)
  · exact List.forall_mem_nil _

/-- A note starts with the mark of a comment, and does not name a precision. -/
lemma IsSpelled.exists_words (h : note.IsSpelled) (hasArguments : Bool) :
    ∃ words, "precision" ∉ words ∧
      (note.lines hasArguments).flatMap sourceWords = "//" :: words := by
  obtain ⟨rest, hrest⟩ : ∃ rest, note.lines hasArguments = "" :: "// output" :: rest := ⟨_, rfl⟩
  have hlines := h.isNoteLine hasArguments
  rw [hrest] at hlines ⊢
  refine ⟨"output" :: rest.flatMap sourceWords, ?_, rfl⟩
  rw [List.mem_cons, not_or, List.mem_flatMap]
  refine ⟨by decide, ?_⟩
  rintro ⟨line, hline, hword⟩
  exact (hlines line (List.mem_cons_of_mem _ (List.mem_cons_of_mem _ hline))).words hword

end CallNote

/-! ## Statements with notes -/

namespace Statement

/-- The statement with a note, if it is a call. -/
def annotated (note : CallNote) : Statement → Statement
  | call function target args _ => call function target args (some note)
  | s => s

/-- The lines that a note adds to the statement. -/
def noteLines (note : CallNote) : Statement → List String
  | call _ _ args _ => note.lines (!args.isEmpty)
  | _ => []

/-- A call has no note, and its target is whole or a color without alpha. -/
def IsBare : Statement → Prop
  | call _ target _ note => note = none ∧ (target.swizzle = "" ∨ target.swizzle = ".rgb")
  | _ => True

/-- The words of a call are an assignment. -/
lemma exists_words_renderCall {target : Argument} (h : IsTerm target.render) (function : String)
    (args : List Argument) :
    ∃ words, sourceWords (renderCall function target args) = target.render :: "=" :: words := by
  have hblank : (" " : String).toList = [' '] := by decide
  obtain ⟨rest, hrest⟩ : ∃ rest, renderCall function target args =
      target.render ++ " " ++ ("=" ++ " " ++ rest) := by
    refine ⟨function ++ "( " ++ ", ".intercalate (args.map Argument.render) ++ " );\n", ?_⟩
    have hequals : " = " = " " ++ ("=" ++ " ") := by decide
    rw [renderCall, hequals]
    simp only [String.append_assoc]
  refine ⟨sourceWords rest, ?_⟩
  rw [hrest, sourceWords_append rfl hblank, sourceWords_append rfl hblank, h.sourceWords_eq]
  rfl

end Statement

namespace Graph

variable {g : Graph} {n : Node} {id : NodeId} {note : CallNote}

/-- What is known about the pins of a node, for a note before its call. -/
def noteOf (g : Graph) (n : Node) : CallNote where
  outputs := n.outputs.targets.map g.operand?
  inputs := (pinnedInputs n).map fun e => (g.resolve n.typeName e.2 e.1).toOption

/-- Two results of a node, without notes and with them: the same problem, or the same statement up to
the note. -/
inductive Noted (note : CallNote) :
    Except Diagnostic (Option Statement) → Except Diagnostic (Option Statement) → Prop
  | none : Noted note (.ok none) (.ok none)
  | error (d : Diagnostic) : Noted note (.error d) (.error d)
  | statement {s : Statement} (h : s.IsBare) :
    Noted note (.ok (some s)) (.ok (some (s.annotated note)))

namespace Noted

/-- A statement without any computation. -/
lemma pure {s s' : Statement} (hs : s.IsBare) (hs' : s' = s.annotated note) :
    Noted note (Option.some <$> (Pure.pure s : Except Diagnostic Statement))
      (Option.some <$> (Pure.pure s' : Except Diagnostic Statement)) :=
  hs' ▸ .statement hs

/-- A computation that comes first in both. -/
lemma bind {α : Type} {x : Except Diagnostic α} {f f' : α → Except Diagnostic Statement}
    (h : ∀ a, Noted note (Option.some <$> f a) (Option.some <$> f' a)) :
    Noted note (Option.some <$> (x >>= f)) (Option.some <$> (x >>= f')) := by
  cases x with
  | error d => exact .error d
  | ok a => exact h a

/-- A call without a note and with it. -/
lemma call {function : String} {target : Argument} {args : List Argument}
    (htarget : target.swizzle = "" ∨ target.swizzle = ".rgb") :
    Noted (g.noteOf n)
      (Option.some <$> (Pure.pure (g.callOf n false function target args) :
        Except Diagnostic Statement))
      (Option.some <$> (Pure.pure (g.callOf n true function target args) :
        Except Diagnostic Statement)) :=
  .pure ⟨rfl, htarget⟩ rfl

/-- A combination has no note. -/
lemma combination (operator : String) :
    Noted note (some <$> g.combination n operator) (some <$> g.combination n operator) := by
  rw [Graph.combination]
  refine .bind fun target => .bind fun operands => ?_
  cases operands with
  | nil => exact .error _
  | cons first rest => exact .pure trivial rfl

/-- A conversion takes the whole color, or the color without alpha. -/
lemma conversionOf (function : String) :
    Noted (g.noteOf n) (some <$> g.conversionOf n false function)
      (some <$> g.conversionOf n true function) := by
  rw [Graph.conversionOf, Graph.conversionOf]
  refine .bind fun target => .bind fun color => .call ?_
  dsimp only
  split
  · exact .inl rfl
  · exact .inr rfl

/-- A function on a color and a range. -/
lemma rangedOf (function : String) (argument : Operand → Argument) :
    Noted (g.noteOf n) (some <$> g.rangedOf n false function argument)
      (some <$> g.rangedOf n true function argument) := by
  rw [Graph.rangedOf, Graph.rangedOf]
  exact .bind fun _ => .bind fun _ => .bind fun _ => .call (.inl rfl)

/-- A function on colors or normals. -/
lemma functionOf (f : ColorFunction) :
    Noted (g.noteOf n) (some <$> g.functionOf n false f) (some <$> g.functionOf n true f) := by
  cases f with
  | normalize => exact .bind fun _ => .bind fun _ => .call (.inl rfl)
  | srgbToLinear => exact .conversionOf _
  | linearToSrgb => exact .conversionOf _
  | frontNormal => exact .bind fun _ => .bind fun _ => .pure trivial rfl
  | encodeRgbm => exact .rangedOf _ _
  | decodeRgbm => exact .rangedOf _ _

/-- Whatever the node is, its results with notes and without them are alike up to the note. -/
lemma checkedStatement (g : Graph) (n : Node) :
    Noted (g.noteOf n) (g.checkedStatement false n) (g.checkedStatement true n) := by
  unfold Graph.checkedStatement
  cases n.validate with
  | error d => exact .error d
  | ok _ =>
    dsimp only
    unfold Graph.statement
    cases n.kind with
    | var v => exact .none
    | output b => exact .none
    | define name value => exact .none
    | add | mult | setFromNode => exact .combination _
    | matrixMult m => exact .bind fun _ => .bind fun _ => .bind fun _ => .pure trivial rfl
    | inlineCode code => exact .bind fun _ => .pure trivial rfl
    | setAlpha => exact .bind fun _ => .bind fun _ => .bind fun _ => .pure trivial rfl
    | preMultAlpha => exact .bind fun _ => .bind fun _ => .bind fun _ => .pure trivial rfl
    | function f => exact .functionOf f
    | texture fetch => exact .bind fun _ => .bind fun _ => .bind fun _ => .call (.inl rfl)
    | light model => exact .bind fun _ => .bind fun _ => .call (.inl rfl)
    | morph =>
      exact .bind fun _ => .bind fun _ => .bind fun _ => .bind fun _ => .call (.inl rfl)
    | skinning =>
      exact .bind fun _ => .bind fun _ => .bind fun _ => .bind fun _ => .call (.inl rfl)
    | billboard => exact .bind fun _ => .bind fun _ => .call (.inl rfl)
    | shadowReceive config => exact .bind fun _ => .bind fun _ => .call (.inl rfl)
    | shadowCast config => exact .bind fun _ => .bind fun _ => .call (.inl rfl)

end Noted

/-- A call has a text. -/
lemma isEmpty_render_call (function : String) (target : Argument) (args : List Argument)
    (note : Option CallNote) : (Statement.call function target args note).render.isEmpty = false :=
  have hwrites : target.operand ∈ (Statement.call function target args note).writes :=
    List.mem_cons_self
  Statement.isEmpty_render hwrites

/-- A statement has a text with its note if it has one without. -/
lemma isEmpty_render_annotated {s : Statement} (h : s.IsBare) (note : CallNote) :
    (s.annotated note).render.isEmpty = s.render.isEmpty := by
  cases s with
  | call function target args other =>
    rw [Statement.annotated, isEmpty_render_call, isEmpty_render_call]
  | _ => rfl

/-- What a number adds to `main` with notes: the same statement, with its note. -/
lemma statementAt?_annotated (g : Graph) (id : NodeId) :
    g.statementAt? true id =
      (g.statementAt? false id).map fun p => (p.1, p.2.annotated (g.noteOf p.1)) := by
  unfold statementAt?
  cases g.node? id with
  | none => rfl
  | some n =>
    rw [Option.bind_some, Option.bind_some]
    have hnoted := Noted.checkedStatement g n
    revert hnoted
    generalize g.checkedStatement false n = plain
    generalize g.checkedStatement true n = noted
    rintro (_ | d | hbare)
    · rfl
    · rfl
    · dsimp only
      rw [isEmpty_render_annotated hbare]
      split <;> rfl

/-- **The statements with notes are those without, each call with its note.** -/
theorem statements_annotated (g : Graph) (roots : List NodeId) :
    g.statements true roots =
      (g.statements false roots).map fun p => (p.1, p.2.annotated (g.noteOf p.1)) := by
  rw [statements, statements, List.map_filterMap]
  exact List.filterMap_congr fun id _ => g.statementAt?_annotated id

/-- The problems of nodes do not depend on notes. -/
lemma diagnostics_ofNodes_annotated (g : Graph) (nodes : List Node) :
    (MainBody.ofNodes g true nodes).diagnostics = (MainBody.ofNodes g false nodes).diagnostics := by
  induction nodes with
  | nil => rfl
  | cons n nodes ih =>
    have hnode : (MainBody.ofNode g true n).diagnostics = (MainBody.ofNode g false n).diagnostics := by
      unfold MainBody.ofNode
      have hnoted := Noted.checkedStatement g n
      revert hnoted
      generalize g.checkedStatement false n = plain
      generalize g.checkedStatement true n = noted
      rintro (_ | d | _) <;> rfl
    have hcons : ∀ debug, (MainBody.ofNodes g debug (n :: nodes)).diagnostics =
        (MainBody.ofNode g debug n).diagnostics ++ (MainBody.ofNodes g debug nodes).diagnostics :=
      fun _ => rfl
    rw [hcons, hcons, hnode, ih]

/-! ## The lines of `main` -/

variable {roots : List NodeId} {s : Statement}

/-- The lines of texts are those of their text, joined by line feeds. -/
lemma linesRead_intercalate (text : String) (texts : List String) :
    linesRead ["\n".intercalate (text :: texts)] = linesRead (text :: texts) := by
  unfold linesRead
  rw [List.flatMap_singleton, Text.split_intercalate]

/-- The lines of some texts and of others. -/
lemma linesRead_append (texts texts' : List String) :
    linesRead (texts ++ texts') = linesRead texts ++ linesRead texts' := by
  unfold linesRead
  rw [List.flatMap_append, List.map_append]

/-- Lines of notes are read back as they are. -/
lemma linesRead_notes {notes : List String} (h : ∀ line ∈ notes, IsNoteLine line) :
    linesRead notes = notes.map String.toList := by
  unfold linesRead
  rw [List.map_flatMap, List.flatMap_congr fun line hline => (h line hline).lines_eq,
    List.map_eq_flatMap]

/-- A statement with a text has the comment of its node and the text. -/
lemma linesOf_eq (h : s.render.isEmpty = false) :
    MainBody.linesOf n s = n.comment.toList ++ [s.render] :=
  if_neg (by rw [h]; exact Bool.false_ne_true)

/-- A call has the comment of its node and its own text, with the lines of its note between them. -/
lemma linesOf_call (n : Node) (function : String) (target : Argument) (args : List Argument)
    (note : CallNote) :
    MainBody.linesOf n (.call function target args none) =
        n.comment.toList ++ [Statement.renderCall function target args] ∧
      MainBody.linesOf n (.call function target args (some note)) = n.comment.toList ++
        ["\n".intercalate (note.lines (!args.isEmpty) ++ [Statement.renderCall function target args])] :=
  ⟨linesOf_eq (isEmpty_render_call _ _ _ _), linesOf_eq (isEmpty_render_call _ _ _ _)⟩

/-- A statement with a note has the lines of the statement and those of the note. -/
lemma omits_annotated (hbare : s.IsBare) (hnote : note.IsSpelled) {dropped : List (List Char)}
    (hdropped : (s.noteLines note).map String.toList ⊆ dropped) :
    Text.Omits dropped (linesRead (MainBody.linesOf n (s.annotated note)))
      (linesRead (MainBody.linesOf n s)) := by
  cases s with
  | call function target args other =>
    obtain ⟨rfl, -⟩ := hbare
    obtain ⟨hplain, hnoted⟩ := linesOf_call n function target args note
    rw [Statement.annotated, hplain, hnoted, linesRead_append, linesRead_append]
    refine (Text.Omits.refl _).append ?_
    have hlines := hnote.isNoteLine (!args.isEmpty)
    obtain ⟨rest, hrest⟩ : ∃ rest, note.lines (!args.isEmpty) = "" :: rest := ⟨_, rfl⟩
    rw [hrest, List.cons_append, linesRead_intercalate, ← List.cons_append, ← hrest, linesRead_append,
      linesRead_notes hlines]
    exact .skipAll hdropped _
  | _ => exact .refl _

/-- A statement with a note can stand for the statement where a precision is looked for. -/
lemma samePrecision_annotated (hbare : s.IsBare) (hnote : note.IsSpelled)
    (hoperands : ∀ o ∈ s.operands, o.IsSpelled) :
    SamePrecision ((MainBody.linesOf n (s.annotated note)).flatMap sourceWords)
      ((MainBody.linesOf n s).flatMap sourceWords) := by
  cases s with
  | call function target args other =>
    obtain ⟨rfl, hswizzle⟩ := hbare
    obtain ⟨hplain, hnoted⟩ := linesOf_call n function target args note
    have htarget := Argument.isTerm_render (hoperands _ List.mem_cons_self) hswizzle
    obtain ⟨words, hwords⟩ := Statement.exists_words_renderCall htarget.1 function args
    obtain ⟨others, hothers, hmark⟩ := hnote.exists_words (!args.isEmpty)
    rw [Statement.annotated, hplain, hnoted, List.flatMap_append, List.flatMap_append,
      List.flatMap_singleton, List.flatMap_singleton, sourceWords_intercalate, List.flatMap_append,
      List.flatMap_singleton, hmark, hwords]
    exact (SamePrecision.refl _).append (.assignment (by decide) hothers htarget.2 words)
  | _ => exact .refl _

/-- All operands of the graph are spelled. -/
def Spelled (g : Graph) : Prop := ∀ id o, g.operand? id = some o → o.IsSpelled

/-- The lines of the notes before the statements of `main`. -/
def noteLines (g : Graph) (roots : List NodeId) : List String :=
  (g.statements false roots).flatMap fun p => p.2.noteLines (g.noteOf p.1)

namespace Sound

variable (h : g.Sound roots) (hspelled : g.Spelled)

include h hspelled

/-- The note of an operation is spelled. -/
lemma isSpelled_noteOf (hn : g.node? id = some n) (hoperation : n.kind.isOperation = true) :
    (g.noteOf n).IsSpelled := by
  have hwired := (h.settled id n hn).wiring hoperation
  intro operand hoperand o ho
  rw [Option.mem_def] at ho
  subst ho
  rcases List.mem_append.1 hoperand with hoperand | hoperand
  · obtain ⟨target, -, htarget⟩ := List.mem_map.1 hoperand
    exact hspelled target o htarget
  · obtain ⟨e, he, hresolve⟩ := List.mem_map.1 hoperand
    obtain ⟨i, hi, rfl⟩ := List.mem_mapIdx.1 he
    obtain ⟨source, hsource, hdeclared⟩ := hwired.inputs _ (List.getElem_mem hi)
    dsimp only at hresolve
    rw [hsource, resolve] at hresolve
    cases hsome : g.operand? source with
    | none => rw [hsome] at hresolve; cases hresolve
    | some other =>
      rw [hsome] at hresolve
      cases hresolve
      exact hspelled source _ hsome

/-- A statement of `main` is bare, its operands are spelled, and so is its note. -/
lemma spelled_of_mem_statements {p : Node × Statement} (hp : p ∈ g.statements false roots) :
    p.2.IsBare ∧ (∀ o ∈ p.2.operands, o.IsSpelled) ∧ (g.noteOf p.1).IsSpelled := by
  obtain ⟨n, s⟩ := p
  obtain ⟨id, -, hn, hs, -⟩ := mem_statements.1 hp
  refine ⟨?_, ?_, h.isSpelled_noteOf hspelled hn (isOperation_of_checkedStatement hs)⟩
  · have hnoted := Noted.checkedStatement g n
    rw [hs] at hnoted
    generalize g.checkedStatement true n = noted at hnoted
    cases hnoted with
    | statement hbare => exact hbare
  · obtain ⟨_, hyields, hof⟩ := h.yields_checkedStatement hn false
    obtain rfl := Except.ok.inj (hyields.symm.trans hs)
    intro o ho
    obtain ⟨other, -, hoperand⟩ := ((hof s rfl).operands o ho).wired
    exact hspelled other o hoperand

/-- The lines of notes leave the code alone. -/
lemma isNoteLine_of_mem_noteLines : ∀ line ∈ g.noteLines roots, IsNoteLine line := by
  intro line hline
  obtain ⟨⟨n, s⟩, hp, hmem⟩ := List.mem_flatMap.1 hline
  obtain ⟨-, -, hnote⟩ := h.spelled_of_mem_statements hspelled hp
  cases s with
  | call function target args other => exact hnote.isNoteLine _ line hmem
  | _ => cases hmem

/-- `main` with notes sheds the lines of the notes. -/
lemma sheds_notes : List.Forall₂ (Sheds ((g.noteLines roots).map String.toList))
    (g.statements true roots) (g.statements false roots) := by
  rw [statements_annotated, List.forall₂_map_left_iff]
  refine List.forall₂_same.2 fun p hp => ?_
  obtain ⟨hbare, -, hnote⟩ := h.spelled_of_mem_statements hspelled hp
  obtain ⟨id, -, -, -, htext⟩ := mem_statements.1 hp
  refine ⟨omits_annotated hbare hnote (List.map_subset _ ?_), ?_, htext⟩
  · exact fun line hline => List.mem_flatMap.2 ⟨p, hp, hline⟩
  · rw [isEmpty_render_annotated hbare]
    exact htext

/-- `main` with notes can stand for `main` where a precision is looked for. -/
lemma samePrecision_notes :
    SamePrecision ((g.statements true roots).flatMap fun p =>
        (MainBody.linesOf p.1 p.2).flatMap sourceWords)
      ((g.statements false roots).flatMap fun p =>
        (MainBody.linesOf p.1 p.2).flatMap sourceWords) := by
  rw [statements_annotated]
  refine .flatMap (List.forall₂_map_left_iff.2 (List.forall₂_same.2 fun p hp => ?_))
  obtain ⟨hbare, hoperands, hnote⟩ := h.spelled_of_mem_statements hspelled hp
  exact samePrecision_annotated hbare hnote hoperands

end Sound

end Graph

/-! ## Sources with notes -/

/-- The stages have the same problems, and sources with the same lines of code. -/
structure CompiledStage.SameCode (c c' : CompiledStage) : Prop where
  diagnostics : c.diagnostics = c'.diagnostics
  code : codeLines c.source = codeLines c'.source

lemma CompiledStage.SameCode.refl (c : CompiledStage) : c.SameCode c := ⟨rfl, rfl⟩

lemma CompiledStage.SameCode.symm {c c' : CompiledStage} (h : c.SameCode c') : c'.SameCode c :=
  ⟨h.diagnostics.symm, h.code.symm⟩

namespace Graph

variable {g : Graph} {roots : List NodeId}

/-- The lines of `main`, and the one that ends it. -/
def mainLines (main : MainBody) : List (List Char) :=
  (Text.split (· == '\n') ("\n".intercalate main.lines).toList).map Text.dropReturn ++ [['\x7d']]

/-- The words of the lines of `main` are those of its texts. -/
lemma words_mainLines (main : MainBody) :
    (mainLines main).flatMap (fun line => sourceWords (String.ofList line)) =
      main.lines.flatMap sourceWords ++ ["\x7d"] := by
  rw [mainLines, List.flatMap_append, sourceWords_split, String.ofList_toList, sourceWords_intercalate]
  rfl

/-- No line of a plain `main` is an include line. -/
lemma not_mem_mainLines {main : MainBody} (h : ∀ line ∈ main.lines, IsPlain line) :
    ∀ line ∈ mainLines main, '#' ∉ line := by
  have htext : IsPlain ("\n".intercalate main.lines) := isPlain_intercalate (by decide) h
  refine List.forall_mem_append.2 ⟨fun line hline hsign => ?_, by decide⟩
  obtain ⟨piece, hpiece, rfl⟩ := List.mem_map.1 hline
  exact htext '#' (Text.mem_of_mem_split hpiece (Text.mem_of_mem_dropReturn hsign)) rfl

/-- What the nodes that the roots reach add to `main`. -/
def mainOf (g : Graph) (debug : Bool) (roots : List NodeId) : MainBody :=
  MainBody.ofNodes g debug (g.nodesOf (g.traverse roots))

/-- The lines of `main` are those of its statements. -/
lemma lines_mainOf (g : Graph) (debug : Bool) (roots : List NodeId) : (g.mainOf debug roots).lines =
    (g.statements debug roots).flatMap fun p => MainBody.linesOf p.1 p.2 :=
  lines_ofNodes g debug (g.traverse roots)

namespace Sound

variable (h : g.Sound roots) (hspelled : g.Spelled)

include h hspelled

/-- `main` with notes has the lines of `main` and those of the notes. -/
lemma omits_mainLines : Text.Omits ((g.noteLines roots).map String.toList)
    (mainLines (g.mainOf true roots)) (mainLines (g.mainOf false roots)) := by
  have hmain := omits_main_of_sheds (h.sheds_notes hspelled)
  rw [← lines_mainOf, ← lines_mainOf] at hmain
  exact hmain.append (.refl _)

/-- The lines of `main` with notes can stand for those of `main` where a precision is looked for. -/
lemma samePrecision_mainLines :
    SamePrecision
      ((mainLines (g.mainOf true roots)).flatMap fun line => sourceWords (String.ofList line))
      ((mainLines (g.mainOf false roots)).flatMap fun line => sourceWords (String.ofList line)) := by
  have hmain := h.samePrecision_notes hspelled
  rw [← List.flatMap_assoc, ← List.flatMap_assoc, ← lines_mainOf, ← lines_mainOf] at hmain
  rw [words_mainLines, words_mainLines]
  exact hmain.append (.refl _)

/-- **Notes are inert.** A sound graph whose operands are spelled compiles with notes to the same problems
and the same code as without them, if the skeleton of the library does not repeat over the body. -/
theorem sameCode_compileStage {lib : Library} (hlib : lib.KeepsBody) (settings : Settings) :
    (compileStage .common lib { settings with debugNodes := true } g roots).SameCode
      (compileStage .common lib { settings with debugNodes := false } g roots) := by
  set nodes := g.nodesOf (g.traverse roots)
  have hnotes := h.isNoteLine_of_mem_noteLines hspelled
  have hinclude : ∀ line ∈ (g.noteLines roots).map String.toList, Include.ofLine? line = none := by
    intro _ hline
    obtain ⟨line, hmem, rfl⟩ := List.mem_map.1 hline
    exact (hnotes line hmem).ofLine?_eq
  -- both bodies have the same lines before those of `main`
  obtain ⟨before, hbody⟩ := linesOf_assemble settings g nodes
  have hprecision : declaresPrecision (expandBody .common lib
        (assemble settings g nodes (g.mainOf false roots)) (collectDefines nodes)).1.text =
      declaresPrecision (expandBody .common lib
        (assemble settings g nodes (g.mainOf true roots)) (collectDefines nodes)).1.text := by
    obtain ⟨defined, lines, hexpand⟩ := exists_expandBody .common (collectDefines nodes) lib
    rw [hexpand, hexpand]
    dsimp only
    exact (declaresPrecision_resolveIncludes ([] :: before) (hbody _) (hbody _)
      (not_mem_mainLines (h.reached_clean true).2) (not_mem_mainLines (h.reached_clean false).2)
      (h.samePrecision_mainLines hspelled)).symm
  have hprocess := process_without .common settings (collectDefines nodes) (collectExtensions nodes)
    hinclude hlib (hbody _) (hbody _) ((Text.Omits.refl before).append (h.omits_mainLines hspelled))
    hprecision
  have hdiagnostics : (g.mainOf true roots).diagnostics = (g.mainOf false roots).diagnostics :=
    g.diagnostics_ofNodes_annotated nodes
  refine ⟨?_, codeLines_eq_of_without hnotes hprocess.source⟩
  exact congrArg₂ (fun main processed => g.diagnostics ++ rootDiagnostics roots ++ main ++ processed)
    hdiagnostics hprocess.diagnostics.symm

end Sound

end Graph

end SceneShading
