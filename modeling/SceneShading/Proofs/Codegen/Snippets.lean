import Mathlib.Data.List.TakeWhile
import Mathlib.Tactic
import SceneShading.Codegen.Generate

/-!
# What a snippet becomes

The text of a snippet is described without the scanner: `Snippet.mentions` lists the names behind
the marks, `Snippet.Fills` relates a snippet to its text character by character, and `Graph.Binds`
says what a pin stands for. The scanner works from the end of the snippet and finds the same text
and the same first name that stands for nothing (`Graph.snippetOf_fills`).

The scanner keeps a run of name characters back until it knows whether a mark stands before it.
`Snippet.Fills.parts` therefore speaks of the snippet behind its leading run, which is where the
parts that are already found begin.
-/

namespace SceneShading

/-- Where not all entries have a property, there is a first one that has not. -/
lemma exists_first_not {α : Type} {p : α → Prop} {l : List α} (h : ¬∀ a ∈ l, p a) :
    ∃ before a after, l = before ++ a :: after ∧ (∀ a ∈ before, p a) ∧ ¬p a := by
  classical
  obtain ⟨a, ha⟩ : ∃ a, l.find? (fun a => decide ¬p a) = some a := by
    by_contra hnone
    refine h fun a ha => ?_
    have hall := List.find?_eq_none.1 (by simpa [Option.eq_none_iff_forall_ne_some] using hnone)
    simpa using hall a ha
  obtain ⟨hp, before, after, hl, hbefore⟩ := List.find?_eq_some_iff_append.1 ha
  exact ⟨before, a, after, hl, by simpa using hbefore, by simpa using hp⟩

namespace Snippet

/-! ## Names and texts -/

/-- The names behind the marks of a snippet, each as long as it can be, in order. -/
def mentions : List Char → List (List Char)
  | [] => []
  | c :: rest =>
    let name := rest.takeWhile isNameChar
    if c = '%' ∧ name ≠ [] then name :: mentions rest else mentions rest

/-- A name begins with the text. -/
def StartsName (code : List Char) : Prop := ∃ c rest, code = c :: rest ∧ isNameChar c = true

/-- The second text is the first one with the value of a name in the place of each mention of it.
Values are not looked at again: what follows one belongs to the text behind the mention. -/
inductive Fills (value : String → String → Prop) : List Char → List Char → Prop
  | nil : Fills value [] []
  /-- A character that begins no mention stays. -/
  | keep {c : Char} {rest out : List Char} (kept : ¬(c = '%' ∧ StartsName rest))
      (behind : Fills value rest out) : Fills value (c :: rest) (c :: out)
  /-- A mark with the longest name behind it gives way to a value of the name. -/
  | fill {name after rest out : List Char} {text : String} (split : rest = name ++ after)
      (named : name ≠ []) (letters : ∀ c ∈ name, isNameChar c = true)
      (longest : ¬StartsName after) (bound : value (String.ofList name) text)
      (behind : Fills value after out) : Fills value ('%' :: rest) (text.toList ++ out)

/-- The name that a part asks for. -/
def Part.name? : Part → Option (List Char)
  | .text _ => none
  | .pin name => some name

/-- The text of a part under values of names. -/
inductive Part.Reads (value : String → String → Prop) : Part → List Char → Prop
  | text (chars : List Char) : Reads value (.text chars) chars
  | pin {name : List Char} {text : String} (bound : value (String.ofList name) text) :
      Reads value (.pin name) text.toList

/-! ## The scanner -/

variable {c : Char} {code rest out : List Char}

/-- A mark is no part of a name. -/
lemma ne_mark (h : isNameChar c = true) : c ≠ '%' := by
  rintro rfl
  exact absurd h (by decide)

/-- A name begins with a text that has a leading run of name characters. -/
lemma startsName_iff : StartsName code ↔ code.takeWhile isNameChar ≠ [] := by
  rw [StartsName]
  cases code with
  | nil => simp
  | cons c rest => by_cases h : isNameChar c = true <;> simp [h]

/-- No name begins behind a leading run. -/
lemma not_startsName_dropWhile (code : List Char) : ¬StartsName (code.dropWhile isNameChar) := by
  rintro ⟨c, rest, hcode, hc⟩
  have hhead := List.head?_dropWhile_not isNameChar code
  rw [hcode] at hhead
  exact absurd hc (by simpa using hhead)

/-- The longest name in front of a text is its leading run. -/
lemma split_eq {name after : List Char} (split : rest = name ++ after)
    (letters : ∀ c ∈ name, isNameChar c = true) (longest : ¬StartsName after) :
    name = rest.takeWhile isNameChar ∧ after = rest.dropWhile isNameChar := by
  have hname : name.takeWhile isNameChar = name := List.takeWhile_eq_self_iff.2 letters
  have hafter : after.takeWhile isNameChar = [] := by
    by_contra h
    exact longest (startsName_iff.2 h)
  have hrun : rest.takeWhile isNameChar = name := by
    rw [split, List.takeWhile_append, hname, if_pos rfl, hafter, List.append_nil]
  refine ⟨hrun.symm, ?_⟩
  have hall := List.takeWhile_append_dropWhile (p := isNameChar) (l := rest)
  exact (List.append_cancel_left (hrun ▸ hall.trans split)).symm

/-- What the scanner keeps back is the leading run. -/
lemma cut_fst (code : List Char) : (cut code).1 = code.takeWhile isNameChar := by
  induction code with
  | nil => rfl
  | cons c rest ih =>
    rw [cut]
    by_cases hc : isNameChar c = true
    · simp [hc, ih]
    · simp only [hc, Bool.false_eq_true, if_false, List.takeWhile_cons]
      split <;> rfl

/-- A character of a leading run leaves the parts as they are. -/
lemma cut_snd_letter (hc : isNameChar c = true) : (cut (c :: rest)).2 = (cut rest).2 := by
  rw [cut]
  simp [hc]

/-- A mark before a name makes a part of both. -/
lemma cut_snd_mark (hrest : StartsName rest) :
    (cut ('%' :: rest)).2 = .pin (rest.takeWhile isNameChar) :: (cut rest).2 := by
  have hmark : isNameChar '%' = false := by decide
  rw [startsName_iff] at hrest
  rw [cut]
  simp [hmark, cut_fst, List.isEmpty_eq_false_iff.2 hrest]

/-- A character that is no letter and begins no mention makes a part of the run behind it. -/
lemma cut_snd_kept (hc : isNameChar c = false) (kept : ¬(c = '%' ∧ StartsName rest)) :
    (cut (c :: rest)).2 = .text (c :: rest.takeWhile isNameChar) :: (cut rest).2 := by
  rw [startsName_iff] at kept
  rw [cut]
  simp only [hc, Bool.false_eq_true, if_false, cut_fst]
  rw [if_neg]
  simpa [List.isEmpty_iff] using kept

/-- The parts ask for the names that are mentioned, in order. -/
lemma filterMap_cut (code : List Char) : (cut code).2.filterMap Part.name? = mentions code := by
  induction code with
  | nil => rfl
  | cons c rest ih =>
    rw [mentions]
    by_cases hc : isNameChar c = true
    · rw [cut_snd_letter hc, ih, if_neg fun h => ne_mark hc h.1]
    by_cases hmention : c = '%' ∧ StartsName rest
    · obtain ⟨rfl, hrest⟩ := hmention
      rw [cut_snd_mark hrest, if_pos ⟨rfl, startsName_iff.1 hrest⟩, List.filterMap_cons, ih]
      rfl
    · rw [cut_snd_kept (by simpa using hc) hmention, List.filterMap_cons, ih]
      rw [startsName_iff] at hmention
      rw [if_neg hmention]
      rfl

lemma filterMap_parts (code : List Char) : (parts code).filterMap Part.name? = mentions code := by
  rw [parts, ← filterMap_cut]
  dsimp only
  split <;> rfl

/-! ## Texts of a snippet -/

namespace Fills

variable {value : String → String → Prop}

/-- A leading run stays. -/
lemma leading (h : Fills value (code.dropWhile isNameChar) out) :
    Fills value code (code.takeWhile isNameChar ++ out) := by
  induction code with
  | nil => exact h
  | cons c rest ih =>
    by_cases hc : isNameChar c = true
    · rw [List.dropWhile_cons_of_pos hc] at h
      rw [List.takeWhile_cons_of_pos hc]
      exact .keep (fun hmark => ne_mark hc hmark.1) (ih h)
    · rw [List.dropWhile_cons_of_neg hc] at h
      rwa [List.takeWhile_cons_of_neg hc]

/-- The texts of the parts, one after another, are a text of the snippet behind its leading run. -/
lemma cut {texts : List (List Char)}
    (h : List.Forall₂ (Part.Reads value) (Snippet.cut code).2 texts) :
    Fills value (code.dropWhile isNameChar) texts.flatten := by
  induction code generalizing texts with
  | nil =>
    cases h
    exact .nil
  | cons c rest ih =>
    by_cases hc : isNameChar c = true
    · rw [cut_snd_letter hc] at h
      rw [List.dropWhile_cons_of_pos hc]
      exact ih h
    rw [List.dropWhile_cons_of_neg hc]
    by_cases hmention : c = '%' ∧ StartsName rest
    · obtain ⟨rfl, hrest⟩ := hmention
      rw [cut_snd_mark hrest] at h
      obtain ⟨text, texts, hfirst, hothers, rfl⟩ := List.forall₂_cons_left_iff.1 h
      cases hfirst with
      | pin hbound =>
        exact .fill List.takeWhile_append_dropWhile.symm (startsName_iff.1 hrest)
          (fun _ => List.mem_takeWhile_imp) (not_startsName_dropWhile rest) hbound (ih hothers)
    · rw [cut_snd_kept (by simpa using hc) hmention] at h
      obtain ⟨text, texts, hfirst, hothers, rfl⟩ := List.forall₂_cons_left_iff.1 h
      cases hfirst
      exact .keep hmention (leading (ih hothers))

/-- The texts of the parts, one after another, are a text of the snippet. -/
lemma parts {texts : List (List Char)}
    (h : List.Forall₂ (Part.Reads value) (Snippet.parts code) texts) :
    Fills value code texts.flatten := by
  rw [Snippet.parts] at h
  dsimp only at h
  rw [cut_fst] at h
  split at h
  · rename_i hrun
    have hnone : code.takeWhile isNameChar = [] := List.isEmpty_iff.1 hrun
    simpa [hnone] using leading (cut h)
  · obtain ⟨text, texts, hfirst, hothers, rfl⟩ := List.forall₂_cons_left_iff.1 h
    cases hfirst
    exact leading (cut hothers)

/-- Where names have one value, a snippet has one text. -/
lemma unique {out' : List Char}
    (hvalue : ∀ name text text', value name text → value name text' → text = text')
    (h : Fills value code out) (h' : Fills value code out') : out = out' := by
  induction h generalizing out' with
  | nil =>
    cases h'
    rfl
  | keep kept _ ih =>
    cases h' with
    | keep _ behind => rw [ih behind]
    | @fill name after _ _ _ split named letters =>
      -- the second text takes a mention where the first one keeps a mark
      obtain ⟨c, name, rfl⟩ := List.exists_cons_of_ne_nil named
      exact absurd ⟨rfl, c, name ++ after, split, letters c List.mem_cons_self⟩ kept
  | @fill name after _ _ _ split named letters longest bound _ ih =>
    cases h' with
    | keep kept =>
      obtain ⟨c, name, rfl⟩ := List.exists_cons_of_ne_nil named
      exact absurd ⟨rfl, c, name ++ after, split, letters c List.mem_cons_self⟩ kept
    | fill split' _ letters' longest' bound' behind' =>
      obtain ⟨rfl, rfl⟩ := split_eq split letters longest
      obtain ⟨rfl, rfl⟩ := split_eq split' letters' longest'
      rw [hvalue _ _ _ bound bound', ih behind']

end Fills

end Snippet

namespace Graph

variable {g : Graph} {n : Node} {pin text : String}

/-! ## Pins -/

/-- What a pin of a node stands for in a snippet: the variable at the output of that name. An output
hides the input of its name; where there is none, the pin stands for the variable or the literal at
the input. -/
inductive Binds (g : Graph) (n : Node) (pin : String) : String → Prop
  | output {id : NodeId} {o : Operand} (wired : n.outputs.pins.lookup pin = some id)
      (operand : g.operand? id = some o) : Binds g n pin o.name
  | input {id : NodeId} {o : Operand} (none : n.outputs.pins.lookup pin = none)
      (wired : n.input? pin = some (.node id)) (operand : g.operand? id = some o) :
      Binds g n pin o.name
  | literal {text : String} (none : n.outputs.pins.lookup pin = none)
      (wired : n.input? pin = some (.literal text)) : Binds g n pin text

/-- The name stands for something. -/
def IsBound (g : Graph) (n : Node) (name : List Char) : Prop :=
  ∃ text, g.Binds n (String.ofList name) text

/-- A pin stands for the name of its operand. -/
lemma binds_iff : g.Binds n pin text ↔ ∃ o, g.pin? n pin = some o ∧ o.name = text := by
  constructor
  · rintro (⟨wired, operand⟩ | ⟨none, wired, operand⟩ | ⟨none, wired⟩)
    · exact ⟨_, by simp [pin?, wired, operand], rfl⟩
    · exact ⟨_, by simp [pin?, none, optionalInput, wired, resolve, operand]; rfl, rfl⟩
    · exact ⟨_, by simp [pin?, none, optionalInput, wired, resolve]; rfl, rfl⟩
  · rintro ⟨o, hpin, rfl⟩
    rw [pin?] at hpin
    split at hpin
    · rename_i id wired
      exact .output wired hpin
    rename_i hnone
    rw [optionalInput] at hpin
    cases hinput : n.input? pin with
    | none => simp [hinput, Except.toOption] at hpin
    | some source =>
      rw [hinput] at hpin
      cases source with
      | literal text =>
        cases hpin
        exact .literal hnone hinput
      | node id =>
        cases ho : g.operand? id with
        | none => simp [resolve, ho, Except.toOption] at hpin
        | some o' =>
          simp only [resolve, ho] at hpin
          cases hpin
          exact .input hnone hinput ho

/-- A pin stands for one text. -/
lemma Binds.unique {text' : String} (h : g.Binds n pin text) (h' : g.Binds n pin text') :
    text = text' := by
  obtain ⟨o, ho, rfl⟩ := binds_iff.1 h
  obtain ⟨o', ho', rfl⟩ := binds_iff.1 h'
  rw [Option.some.inj (ho.symm.trans ho')]

/-! ## Statements -/

/-- Parts whose names all stand for something become pieces with the texts of the parts. -/
lemma mapM_pieceOf {parts : List Snippet.Part}
    (h : ∀ name ∈ parts.filterMap Snippet.Part.name?, g.IsBound n name) :
    ∃ pieces, parts.mapM (g.pieceOf n) = .ok pieces ∧
      List.Forall₂ (Snippet.Part.Reads (g.Binds n)) parts
        (pieces.map fun piece => piece.render.toList) := by
  induction parts with
  | nil => exact ⟨[], rfl, .nil⟩
  | cons part parts ih =>
    cases part with
    | text chars =>
      obtain ⟨pieces, hmade, hreads⟩ := ih h
      refine ⟨.text (String.ofList chars) :: pieces, ?_, .cons ?_ hreads⟩
      · rw [List.mapM_cons, hmade]
        rfl
      · simpa [Piece.render] using .text chars
    | pin name =>
      obtain ⟨text, hbound⟩ := h name List.mem_cons_self
      obtain ⟨o, hpin, rfl⟩ := binds_iff.1 hbound
      obtain ⟨pieces, hmade, hreads⟩ := ih fun name hname => h name (List.mem_cons_of_mem _ hname)
      refine ⟨.pin (String.ofList name) o :: pieces, ?_, .cons (.pin hbound) hreads⟩
      rw [List.mapM_cons, pieceOf, hpin, hmade]
      rfl

/-- A name that stands for nothing is reported, if no earlier one is. -/
lemma mapM_pieceOf_error {parts : List Snippet.Part} {before after : List (List Char)}
    {name : List Char} (hnames : parts.filterMap Snippet.Part.name? = before ++ name :: after)
    (hbefore : ∀ name ∈ before, g.IsBound n name) (hname : ¬g.IsBound n name) :
    parts.mapM (g.pieceOf n) = .error (.missingInput n.typeName (String.ofList name)) := by
  obtain ⟨firsts, others, rfl, rfl, hothers⟩ := List.filterMap_eq_append_iff.1 hnames
  obtain ⟨texts, part, behind, rfl, htexts, hpart, -⟩ := List.filterMap_eq_cons_iff.1 hothers
  have hfirsts : ∃ pieces, firsts.mapM (g.pieceOf n) = .ok pieces :=
    (mapM_pieceOf hbefore).imp fun _ h => h.1
  have htexts : ∃ pieces, texts.mapM (g.pieceOf n) = .ok pieces := by
    refine (mapM_pieceOf fun name hname => ?_).imp fun _ h => h.1
    rw [List.filterMap_eq_nil_iff.2 htexts] at hname
    exact absurd hname List.not_mem_nil
  obtain ⟨pieces, hpieces⟩ := hfirsts
  obtain ⟨pieces', hpieces'⟩ := htexts
  have hstop : g.pieceOf n part = .error (.missingInput n.typeName (String.ofList name)) := by
    cases part with
    | text chars => cases hpart
    | pin _ =>
      cases hpart
      have hpin : g.pin? n (String.ofList name) = none := by
        by_contra h
        obtain ⟨o, ho⟩ := Option.ne_none_iff_exists'.1 h
        exact hname ⟨o.name, binds_iff.2 ⟨o, ho, rfl⟩⟩
      rw [pieceOf, hpin]
  rw [List.mapM_append, hpieces, List.mapM_append, hpieces', List.mapM_cons, hstop]
  rfl

/-- A snippet whose names all stand for something becomes the one text that has their values in the
places of the names. Otherwise the problem is the first name that stands for nothing. -/
theorem snippetOf_fills (g : Graph) (n : Node) (code : String) :
    ((∀ name ∈ Snippet.mentions code.toList, g.IsBound n name) →
      ∃ s, g.snippetOf n code = .ok s ∧
        ∀ text, Snippet.Fills (g.Binds n) code.toList text ↔ text = s.render.toList) ∧
    ((¬∀ name ∈ Snippet.mentions code.toList, g.IsBound n name) →
      ∃ before name after, Snippet.mentions code.toList = before ++ name :: after ∧
        (∀ name ∈ before, g.IsBound n name) ∧ ¬g.IsBound n name ∧
        g.snippetOf n code = .error (.missingInput n.typeName (String.ofList name))) := by
  rw [← Snippet.filterMap_parts]
  constructor
  · intro hbound
    obtain ⟨pieces, hmade, hreads⟩ := mapM_pieceOf hbound
    have hfills := Snippet.Fills.parts hreads
    have htext : (Statement.snippet pieces).render.toList =
        (pieces.map fun piece => piece.render.toList).flatten := by
      rw [Statement.render, String.toList_join, List.flatMap_map]
      rfl
    refine ⟨.snippet pieces, by rw [snippetOf, hmade]; rfl, fun text => ?_⟩
    rw [htext]
    constructor
    · exact fun h => h.unique (fun _ _ _ hbound hbound' => hbound.unique hbound') hfills
    · rintro rfl
      exact hfills
  · intro hunbound
    obtain ⟨before, name, after, hnames, hbefore, hname⟩ := exists_first_not hunbound
    refine ⟨before, name, after, hnames, hbefore, hname, ?_⟩
    rw [snippetOf, mapM_pieceOf_error hnames hbefore hname]
    rfl

end Graph

end SceneShading
