import Mathlib.Tactic
import SceneShading.Proofs.Codegen.Compilation
import SceneShading.Proofs.Graph.Flow

/-!
# What statements assign

A statement assigns values to operands (`Statement.writes`): to its target, and a call of a shading
function to its out-parameters as well. A snippet assigns to the pins that its own statements begin
with, so what it assigns is read off its text.

Whatever a node is meant to assign (`Node.Assigns`) is assigned by the statement that it becomes
(`Graph.mem_writes_of_assigns`). This holds in every graph, sound or not, since the generator either
stops or resolves all the pins that it names. In a sound graph it does not stop, and every operation
that writes a variable without an initial value assigns one (`Graph.Sound.exists_statement`).
-/

namespace SceneShading

/-! ## Assignments in snippets -/

namespace Snippet

variable {tokens statement : List (Char ⊕ String)} {pin : String}

/-- The parts of a cut list hold nothing new. -/
lemma mem_of_mem_splitOnP {α : Type} {p : α → Bool} {l part : List α} (hpart : part ∈ l.splitOnP p) :
    part ⊆ l := by
  induction l generalizing part with
  | nil =>
    rw [List.splitOnP_nil, List.mem_singleton] at hpart
    exact hpart ▸ List.Subset.refl _
  | cons a l ih =>
    rw [List.splitOnP_cons_eq_if_modifyHead] at hpart
    split at hpart
    · rcases List.mem_cons.1 hpart with rfl | hpart
      · exact List.nil_subset _
      · exact List.subset_cons_of_subset _ (ih hpart)
    · obtain ⟨first, rest, hsplit⟩ := List.exists_cons_of_ne_nil (List.splitOnP_ne_nil p l)
      rw [hsplit, List.modifyHead_cons] at hpart
      rcases List.mem_cons.1 hpart with rfl | hpart
      · exact List.cons_subset_cons _ (ih (hsplit ▸ List.mem_cons_self))
      · exact List.subset_cons_of_subset _ (ih (hsplit ▸ List.mem_cons_of_mem _ hpart))

/-- A statement begins with the pin that it assigns a value to, and a blank. -/
lemma subset_of_assigned? (h : assigned? statement = some pin) :
    [.inr pin, .inl ' '] ⊆ statement := by
  rw [assigned?.eq_def] at h
  split at h
  · cases h
    simp
  · cases h

/-- A snippet mentions the pins that it assigns values to, and it holds a blank if there are any. -/
lemma subset_of_mem_assignedIn (h : pin ∈ assignedIn tokens) : [.inr pin, .inl ' '] ⊆ tokens := by
  obtain ⟨statement, hstatement, hpin⟩ := List.mem_filterMap.1 h
  obtain ⟨part, hpart, rfl⟩ := List.mem_map.1 hstatement
  have hsub := List.Subset.trans (subset_of_assigned? hpin) (List.dropWhile_sublist _).subset
  exact List.Subset.trans hsub (mem_of_mem_splitOnP hpart)

end Snippet

/-- A piece of a snippet, character by character, with the pin that it stands for. -/
def Piece.tokens : Piece → List (Char ⊕ String)
  | .text chars => chars.toList.map .inl
  | .pin name _ => [.inr name]

/-- The operand of a piece, if the snippet with these tokens assigns a value to it. -/
def Piece.assigned? (tokens : List (Char ⊕ String)) : Piece → Option Operand
  | .text _ => none
  | .pin name o => if (Snippet.assignedIn tokens).contains name then some o else none

/-! ## Assignments in statements -/

/-- The light model that a function shades with. -/
def LightModel.ofFunction? (function : String) : Option LightModel :=
  [point, spot, sun, hemi].find? (·.function == function)

/-- A light model has a function of its own. -/
lemma LightModel.ofFunction?_function (model : LightModel) :
    ofFunction? model.function = some model := by
  cases model <;> decide

/-- The out-parameters of a light model are among its pins. -/
lemma LightModel.outPins_subset (model : LightModel) :
    model.outPins ⊆ model.pins.map (·.name) := by
  cases model <;> decide

namespace Statement

/-- The arguments that a function assigns values to. -/
def outArguments (function : String) (args : List Argument) : List Operand :=
  match LightModel.ofFunction? function with
  | some model =>
    ((model.pins.zip args).filter fun e => model.outPins.contains e.1.name).map (·.2.operand)
  | none => []

/-- The operands that a statement assigns values to. -/
def writes : Statement → List Operand
  | combine _ target _ _ => [target]
  | product _ target _ _ => [target]
  | snippet pieces => pieces.filterMap (Piece.assigned? (pieces.flatMap Piece.tokens))
  | setAlpha target _ _ => [target]
  | premultiply target _ _ => [target]
  | frontNormal target _ => [target]
  | call function target args _ => target.operand :: outArguments function args

/-- The text of a statement that assigns a value holds a blank. -/
lemma blank_mem_render {s : Statement} {o : Operand} (h : o ∈ s.writes) : ' ' ∈ s.render.toList := by
  cases s with
  | combine operator target first rest => simp [render]
  | product m target vec matrix =>
    simp only [render, renderProduct]
    split <;> simp
  | snippet pieces =>
    obtain ⟨piece, -, hassigned⟩ := List.mem_filterMap.1 h
    have hblank : .inl ' ' ∈ pieces.flatMap Piece.tokens := by
      cases piece with
      | text chars => cases hassigned
      | pin name o' =>
        rw [Piece.assigned?] at hassigned
        split at hassigned
        next hpin =>
          exact Snippet.subset_of_mem_assignedIn (List.contains_iff_mem.1 hpin) (by simp)
        next => cases hassigned
    obtain ⟨other, hother, htoken⟩ := List.mem_flatMap.1 hblank
    rw [render, String.toList_join, List.mem_flatMap]
    refine ⟨other.render, List.mem_map_of_mem hother, ?_⟩
    cases other with
    | text chars => simpa [Piece.tokens, Piece.render] using htoken
    | pin name o' => simp [Piece.tokens] at htoken
  | setAlpha target color alpha => simp [render]
  | premultiply target color alpha => simp [render]
  | frontNormal target normal => simp [render]
  | call function target args note =>
    cases note with
    | none => simp [render, renderCall]
    | some n => simp [render, renderCall, CallNote.lines]

/-- A statement that assigns a value leaves text. -/
lemma isEmpty_render {s : Statement} {o : Operand} (h : o ∈ s.writes) :
    s.render.isEmpty = false := by
  have hblank := blank_mem_render h
  by_contra hempty
  rw [Bool.not_eq_false, String.isEmpty_iff] at hempty
  rw [hempty] at hblank
  cases hblank

end Statement

/-! ## From nodes to statements -/

/-- Whatever result there is, it has the property. -/
def Leaves {ε α : Type} (x : Except ε α) (p : α → Prop) : Prop := ∀ a, x = .ok a → p a

namespace Leaves

variable {ε α β : Type} {x : Except ε α} {f : α → Except ε β} {p : α → Prop} {q : β → Prop}

/-- A computation of which nothing is known. -/
lemma any (x : Except ε α) : Leaves x fun _ => True := fun _ _ => trivial

/-- A result without any computation. -/
lemma pure {b : β} (h : q b) : Leaves (Pure.pure b : Except ε β) q := by
  intro b' hb'
  cases hb'
  exact h

/-- No result. -/
lemma error (e : ε) : Leaves (.error e : Except ε α) p := fun _ h => nomatch h

/-- One computation after another. -/
lemma bind (hx : Leaves x p) (hf : ∀ a, p a → Leaves (f a) q) : Leaves (x >>= f) q := by
  intro b hb
  cases x with
  | error e => cases hb
  | ok a => exact hf a (hx a rfl) b hb

/-- A computation with its result changed. -/
lemma map {f : α → β} (hx : Leaves x p) (hf : ∀ a, p a → q (f a)) : Leaves (f <$> x) q := by
  intro b hb
  cases x with
  | error e => cases hb
  | ok a =>
    cases hb
    exact hf a (hx a rfl)

/-- What a computation leaves, its result has where there is one. -/
lemma some (hx : Leaves x p) : Leaves (Option.some <$> x) fun s => ∀ a ∈ s, p a :=
  hx.map fun _ ha _ h => Option.mem_some.1 h ▸ ha

/-- Computations for the entries of a list have their results in the order of the entries. -/
lemma mapM {f : α → Except ε β} (as : List α) :
    Leaves (as.mapM f) (List.Forall₂ (fun a b => f a = .ok b) as) := by
  induction as with
  | nil => exact .pure .nil
  | cons a as ih =>
    rw [List.mapM_cons]
    have hfirst : Leaves (f a) fun b => f a = .ok b := fun _ hb => hb
    exact .bind hfirst fun b hb => .bind ih fun bs hbs => .pure (.cons hb hbs)

/-- What each computation leaves, all the results have. -/
lemma forall_mapM {f : α → Except ε β} {as : List α} (h : ∀ a ∈ as, Leaves (f a) q) :
    Leaves (as.mapM f) fun bs => ∀ b ∈ bs, q b := by
  intro bs hbs b hb
  have hall := mapM as bs hbs
  obtain ⟨i, hi, rfl⟩ := List.getElem_of_mem hb
  have hi' : i < as.length := hall.length_eq ▸ hi
  exact h as[i] (List.getElem_mem hi') _ (hall.get hi' hi)

end Leaves

namespace Graph

variable {g : Graph} {n : Node} {debug : Bool} {s : Statement} {id : NodeId} {o : Operand}
  {pin : String}

/-- A wired output pin has the operand of its node. -/
lemma leaves_output (hpin : n.outputs.get? pin = some id) (ho : g.operand? id = some o) :
    Leaves (g.output n pin) (· = o) := by
  rw [output, hpin]
  simp only [resolve, ho]
  exact .pure rfl

/-- The first output has the operand of its node. -/
lemma leaves_firstOutput (hfirst : n.outputs.first? = some id) (ho : g.operand? id = some o) :
    Leaves (g.firstOutput n) (· = o) := by
  rw [firstOutput, hfirst]
  simp only [resolve, ho]
  exact .pure rfl

/-- A wired input pin has the operand of its node. -/
lemma leaves_input (hpin : n.input? pin = some (.node id)) (ho : g.operand? id = some o) :
    Leaves (g.input n pin) (· = o) := by
  rw [input, hpin]
  simp only [resolve, ho]
  exact .pure rfl

/-- A combination writes the first output. -/
lemma leaves_combination {operator : String} (hfirst : Leaves (g.firstOutput n) (· = o)) :
    Leaves (g.combination n operator) (o ∈ ·.writes) := by
  rw [combination]
  refine .bind hfirst fun target htarget => .bind (.any _) fun operands _ => ?_
  cases operands with
  | nil => exact .error _
  | cons first rest => exact .pure (htarget ▸ List.mem_cons_self)

/-- A piece keeps the part that it was made of, with the pin resolved. -/
lemma tokens_of_pieceOf {part : Snippet.Part} {piece : Piece} (h : g.pieceOf n part = .ok piece) :
    piece.tokens = part.tokens := by
  cases part with
  | text chars =>
    cases h
    rw [Piece.tokens, String.toList_ofList, Snippet.Part.tokens]
  | pin name =>
    rw [pieceOf] at h
    split at h
    · cases h
      rfl
    · cases h

/-- A piece that stands for a pin was made with the operand of that pin. -/
lemma pin?_of_pieceOf {part : Snippet.Part} {o' : Operand}
    (h : g.pieceOf n part = .ok (.pin pin o')) : g.pin? n pin = some o' := by
  cases part with
  | text chars => cases h
  | pin name =>
    rw [pieceOf] at h
    split at h
    next hpin =>
      cases h
      exact hpin
    next => cases h

/-- The pieces of a snippet spell its code. -/
lemma flatMap_tokens {code : String} {pieces : List Piece}
    (h : List.Forall₂ (fun part piece => g.pieceOf n part = .ok piece)
      (Snippet.parts code.toList) pieces) :
    pieces.flatMap Piece.tokens = Snippet.tokens code := by
  rw [Snippet.tokens]
  generalize Snippet.parts code.toList = parts at h
  induction h with
  | nil => rfl
  | cons hpiece _ ih =>
    rw [List.flatMap_cons, List.flatMap_cons, ih, tokens_of_pieceOf hpiece]

/-- A snippet writes the pins that it assigns values to. -/
lemma leaves_snippetOf {code : String} (hpin : pin ∈ Snippet.assigned code)
    (hwired : n.outputs.pins.lookup pin = some id) (ho : g.operand? id = some o) :
    Leaves (g.snippetOf n code) (o ∈ ·.writes) := by
  rw [snippetOf]
  refine .bind (.mapM _) fun pieces hpieces => .pure ?_
  have htokens := flatMap_tokens hpieces
  have hmem : .inr pin ∈ pieces.flatMap Piece.tokens := by
    rw [htokens]
    exact Snippet.subset_of_mem_assignedIn hpin List.mem_cons_self
  obtain ⟨piece, hpiece, htoken⟩ := List.mem_flatMap.1 hmem
  obtain ⟨part, -, hmade⟩ : ∃ part ∈ Snippet.parts code.toList, g.pieceOf n part = .ok piece := by
    obtain ⟨i, hi, rfl⟩ := List.getElem_of_mem hpiece
    have hlength := hpieces.length_eq
    exact ⟨_, List.getElem_mem (hlength ▸ hi), hpieces.get (hlength ▸ hi) hi⟩
  cases piece with
  | text chars =>
    rw [Piece.tokens, List.mem_map] at htoken
    obtain ⟨c, -, hc⟩ := htoken
    cases hc
  | pin name o' =>
    rw [Piece.tokens, List.mem_singleton] at htoken
    cases htoken
    have ho' : o' = o := by
      have hresolved := pin?_of_pieceOf hmade
      rw [pin?, hwired] at hresolved
      exact (Option.some.inj (ho.symm.trans hresolved)).symm
    have hassigned : (Snippet.assignedIn (pieces.flatMap Piece.tokens)).contains pin = true := by
      rw [htokens]
      exact List.contains_iff_mem.2 hpin
    refine List.mem_filterMap.2 ⟨.pin pin o', hpiece, ?_⟩
    rw [Piece.assigned?, if_pos hassigned, ho']

/-- A product writes its target. -/
lemma leaves_productOf {m : MatrixMult} (htarget : Leaves (g.output n "vec") (· = o)) :
    Leaves (g.productOf n m) (o ∈ ·.writes) := by
  rw [productOf]
  refine .bind (.any _) fun vec _ => .bind (.any _) fun matrix _ => .bind htarget fun target ht => ?_
  exact .pure (ht ▸ List.mem_cons_self)

/-- A color with another alpha is written. -/
lemma leaves_alphaOf (htarget : Leaves (g.output n "color") (· = o)) :
    Leaves (g.alphaOf n) (o ∈ ·.writes) := by
  rw [alphaOf]
  refine .bind htarget fun target ht => .bind (.any _) fun color _ => .bind (.any _) fun alpha _ => ?_
  exact .pure (ht ▸ List.mem_cons_self)

/-- A color times an alpha is written. -/
lemma leaves_premultiplyOf (htarget : Leaves (g.output n "color") (· = o)) :
    Leaves (g.premultiplyOf n) (o ∈ ·.writes) := by
  rw [premultiplyOf]
  refine .bind htarget fun target ht => .bind (.any _) fun color _ => .bind (.any _) fun alpha _ => ?_
  exact .pure (ht ▸ List.mem_cons_self)

/-- A call writes its target. -/
lemma mem_writes_callOf {function : String} {target : Argument} {args : List Argument} :
    target.operand ∈ (g.callOf n debug function target args).writes :=
  List.mem_cons_self

/-- A function on a color and a range writes its target. -/
lemma leaves_rangedOf {function : String} {argument : Operand → Argument}
    (htarget : Leaves (g.output n "color") (· = o)) :
    Leaves (g.rangedOf n debug function argument) (o ∈ ·.writes) := by
  rw [rangedOf]
  refine .bind htarget fun target ht => .bind (.any _) fun color _ => .bind (.any _) fun range _ => ?_
  exact .pure (ht ▸ mem_writes_callOf)

/-- A conversion writes its target. -/
lemma leaves_conversionOf {function : String} (htarget : Leaves (g.output n "color") (· = o)) :
    Leaves (g.conversionOf n debug function) (o ∈ ·.writes) := by
  rw [conversionOf]
  refine .bind htarget fun target ht => .bind (.any _) fun color _ => .pure ?_
  exact ht ▸ mem_writes_callOf

/-- A function writes its target. -/
lemma leaves_functionOf {f : ColorFunction} (htarget : Leaves (g.output n f.outputPin) (· = o)) :
    Leaves (g.functionOf n debug f) (o ∈ ·.writes) := by
  cases f with
  | normalize =>
    rw [functionOf]
    refine .bind htarget fun target ht => .bind (.any _) fun vec _ => .pure ?_
    exact ht ▸ mem_writes_callOf
  | srgbToLinear => exact leaves_conversionOf htarget
  | linearToSrgb => exact leaves_conversionOf htarget
  | frontNormal =>
    rw [functionOf]
    refine .bind htarget fun target ht => .bind (.any _) fun normal _ => .pure ?_
    exact ht ▸ List.mem_cons_self
  | encodeRgbm => exact leaves_rangedOf htarget
  | decodeRgbm => exact leaves_rangedOf htarget

/-- A texture read writes its target. -/
lemma leaves_textureOf {fetch : TextureFetch} (htarget : Leaves (g.output n "color") (· = o)) :
    Leaves (g.textureOf n debug fetch) (o ∈ ·.writes) := by
  rw [textureOf]
  refine .bind htarget fun target ht => .bind (.any _) fun sampler _ => .bind (.any _) fun uv _ => ?_
  exact .pure (ht ▸ mem_writes_callOf)

/-- The blending of morph targets writes its target. -/
lemma leaves_morphOf (htarget : Leaves (g.output n "out") (· = o)) :
    Leaves (g.morphOf n debug) (o ∈ ·.writes) := by
  rw [morphOf]
  refine .bind htarget fun target ht => .bind (.any _) fun weights _ => ?_
  refine .bind (.any _) fun vertex _ => .bind (.any _) fun targets _ => .pure ?_
  exact ht ▸ mem_writes_callOf

/-- Skinning writes its target. -/
lemma leaves_skinningOf (htarget : Leaves (g.output n "mat4") (· = o)) :
    Leaves (g.skinningOf n debug) (o ∈ ·.writes) := by
  rw [skinningOf]
  refine .bind htarget fun target ht => .bind (.any _) fun weights _ => ?_
  refine .bind (.any _) fun bones _ => .bind (.any _) fun palette _ => .pure ?_
  exact ht ▸ mem_writes_callOf

/-- A call with the operands of some pins writes its target. -/
lemma leaves_wholeCall {function : String} {pins : List String}
    (htarget : Leaves (g.output n pin) (· = o)) :
    Leaves (do
      let target ← g.output n pin
      let args ← g.wholeInputs n pins
      return g.callOf n debug function (.whole target) args) (o ∈ ·.writes) := by
  refine .bind htarget fun target ht => .bind (.any _) fun args _ => .pure ?_
  exact ht ▸ mem_writes_callOf

/-- The shading of a surface writes the color and the out-parameters of the light. -/
lemma leaves_lightOf {model : LightModel} (ho : g.operand? id = some o)
    (hassigns : n.outputs.get? "color" = some id ∨
      ∃ pin ∈ model.outPins, n.input? pin = some (.node id)) :
    Leaves (g.lightOf n debug model) (o ∈ ·.writes) := by
  rw [lightOf]
  rcases hassigns with htarget | ⟨pin, hpin, hwired⟩
  · refine .bind (leaves_output htarget ho) fun target ht => .bind (.any _) fun args _ => .pure ?_
    exact ht ▸ mem_writes_callOf
  · refine .bind (.any _) fun target _ => .bind (.mapM _) fun args hargs => .pure ?_
    -- the argument in the place of the pin
    obtain ⟨p, hp, rfl⟩ := List.mem_map.1 (model.outPins_subset hpin)
    obtain ⟨i, hi, rfl⟩ := List.getElem_of_mem hp
    have hi' : i < args.length := hargs.length_eq ▸ hi
    have hoperand : args[i].operand = o := by
      refine Leaves.map (q := fun arg => arg.operand = o) (leaves_input hwired ho)
        (fun o' ho' => ?_) args[i] (hargs.get hi hi')
      split <;> exact ho'
    have hzip : (model.pins[i], args[i]) ∈ model.pins.zip args := by
      have hlength : i < (model.pins.zip args).length := by
        rw [List.length_zip]
        exact lt_min hi hi'
      have hget := List.getElem_mem hlength
      rwa [List.getElem_zip] at hget
    rw [callOf, Statement.writes, Statement.outArguments, LightModel.ofFunction?_function]
    refine List.mem_cons_of_mem _ (List.mem_map.2 ⟨(model.pins[i], args[i]), ?_, hoperand⟩)
    exact List.mem_filter.2 ⟨hzip, List.contains_iff_mem.2 hpin⟩

/-- The statement of a node writes what the node assigns. -/
lemma leaves_statement_of_assigns (hassigns : n.Assigns id) (ho : g.operand? id = some o) :
    Leaves (g.statement debug n) fun s => ∀ t ∈ s, o ∈ t.writes := by
  have htarget : ∀ {kind : NodeKind} {pin : String}, kind.requiredOutputs = [pin] →
      kind.outPins = [] →
      ((∃ pin ∈ kind.requiredOutputs, n.outputs.get? pin = some id) ∨
        ∃ pin ∈ kind.outPins, n.input? pin = some (.node id)) →
      Leaves (g.output n pin) (· = o) := by
    rintro kind pin hpins houts (⟨other, hother, hwired⟩ | ⟨other, hother, -⟩)
    · rw [hpins, List.mem_singleton] at hother
      exact leaves_output (hother ▸ hwired) ho
    · rw [houts] at hother
      cases hother
  rw [Node.Assigns] at hassigns
  rw [statement]
  generalize n.kind = kind at hassigns
  cases kind with
  | var v => exact .pure (by simp)
  | output b => exact .pure (by simp)
  | define name value => exact .pure (by simp)
  | add | mult | setFromNode => exact .some (leaves_combination (leaves_firstOutput hassigns ho))
  | matrixMult m => exact .some (leaves_productOf (htarget rfl rfl hassigns))
  | inlineCode code =>
    obtain ⟨pin, hpin, hwired⟩ := hassigns
    exact .some (leaves_snippetOf hpin hwired ho)
  | setAlpha => exact .some (leaves_alphaOf (htarget rfl rfl hassigns))
  | preMultAlpha => exact .some (leaves_premultiplyOf (htarget rfl rfl hassigns))
  | function f => exact .some (leaves_functionOf (htarget rfl rfl hassigns))
  | texture fetch => exact .some (leaves_textureOf (htarget rfl rfl hassigns))
  | light model =>
    refine .some (leaves_lightOf ho (hassigns.imp_left ?_))
    rintro ⟨pin, hpin, hwired⟩
    exact List.mem_singleton.1 hpin ▸ hwired
  | morph => exact .some (leaves_morphOf (htarget rfl rfl hassigns))
  | skinning => exact .some (leaves_skinningOf (htarget rfl rfl hassigns))
  | billboard => exact .some (leaves_wholeCall (htarget rfl rfl hassigns))
  | shadowReceive config => exact .some (leaves_wholeCall (htarget rfl rfl hassigns))
  | shadowCast config => exact .some (leaves_wholeCall (htarget rfl rfl hassigns))

/-- **A statement writes what its node assigns**, in whatever graph. -/
theorem mem_writes_of_assigns (hs : g.checkedStatement debug n = .ok (some s))
    (hassigns : n.Assigns id) (ho : g.operand? id = some o) : o ∈ s.writes := by
  rw [checkedStatement] at hs
  split at hs
  · exact leaves_statement_of_assigns hassigns ho _ hs s rfl
  · cases hs

/-! ## The statements of a stage -/

variable {roots : List NodeId} {v : Variable}

/-- What a number adds to `main`: its node and the statement of that node, if the statement has a
text. -/
def statementAt? (g : Graph) (debug : Bool) (id : NodeId) : Option (Node × Statement) :=
  (g.node? id).bind fun n =>
    match g.checkedStatement debug n with
    | .ok (some s) => if s.render.isEmpty then none else some (n, s)
    | _ => none

/-- The statements of `main` with their nodes, in their order. -/
def statements (g : Graph) (debug : Bool) (roots : List NodeId) : List (Node × Statement) :=
  (g.traverse roots).filterMap (g.statementAt? debug)

/-- The node and the statement of a number. -/
lemma statementAt?_eq_some_iff : g.statementAt? debug id = some (n, s) ↔
    g.node? id = some n ∧ g.checkedStatement debug n = .ok (some s) ∧ s.render.isEmpty = false := by
  rw [statementAt?, Option.bind_eq_some_iff]
  constructor
  · rintro ⟨m, hm, hstatement⟩
    split at hstatement
    next t ht =>
      split at hstatement
      · cases hstatement
      next hempty =>
        cases hstatement
        exact ⟨hm, ht, Bool.eq_false_of_not_eq_true hempty⟩
    next => cases hstatement
  · rintro ⟨hn, hs, hempty⟩
    refine ⟨n, hn, ?_⟩
    rw [hs]
    simp only [hempty, Bool.false_eq_true, if_false]

/-- The statements of `main` are those of the nodes that the roots reach. -/
lemma mem_statements : (n, s) ∈ g.statements debug roots ↔ ∃ id ∈ g.traverse roots,
    g.node? id = some n ∧ g.checkedStatement debug n = .ok (some s) ∧ s.render.isEmpty = false := by
  simp only [statements, List.mem_filterMap, statementAt?_eq_some_iff]

/-- The lines of `main` are those of its statements. -/
lemma lines_ofNodes (g : Graph) (debug : Bool) (ids : List NodeId) :
    (MainBody.ofNodes g debug (g.nodesOf ids)).lines =
      (ids.filterMap (g.statementAt? debug)).flatMap fun e => MainBody.linesOf e.1 e.2 := by
  induction ids with
  | nil => rfl
  | cons id ids ih =>
    have hlast : (id :: ids).filterMap (g.statementAt? debug) =
        (g.statementAt? debug id).toList ++ ids.filterMap (g.statementAt? debug) := by
      rw [List.filterMap_cons]
      cases g.statementAt? debug id <;> rfl
    rw [hlast, List.flatMap_append, ← ih, nodesOf, List.filterMap_cons, statementAt?]
    cases g.node? id with
    | none => rfl
    | some n =>
      have hcons : (MainBody.ofNodes g debug (n :: g.nodesOf ids)).lines =
          (MainBody.ofNode g debug n).lines ++ (MainBody.ofNodes g debug (g.nodesOf ids)).lines := rfl
      refine hcons.trans (congrArg (· ++ _) ?_)
      rw [MainBody.ofNode, Option.bind_some]
      split
      next hnone => rw [hnone]; rfl
      next t ht =>
        rw [ht]
        simp only
        by_cases hempty : t.render.isEmpty = true
        · rw [MainBody.linesOf, if_pos hempty, if_pos hempty]
          rfl
        · rw [if_neg hempty, Option.toList_some, List.flatMap_singleton]
      next d hd => rw [hd]; rfl

/-- An operation that writes a variable without an initial value has a statement that assigns one. -/
lemma Sound.exists_statement (h : g.Sound roots) {j : NodeId} (debug : Bool)
    (hwrites : g.Writes j id) (hv : g.declared? id = some v) (hvalue : v.value = none) :
    ∃ n s, g.statementAt? debug j = some (n, s) ∧ ⟨v.name, some v.type⟩ ∈ s.writes := by
  obtain ⟨o, ho, htarget⟩ := hwrites
  obtain ⟨n, hn, hoperation, rfl⟩ := operation?_eq_some_iff.1 ho
  have hwired := (h.settled j n hn).wiring hoperation
  obtain ⟨_, hs, s, rfl, -⟩ := hwired.yields_statement h.plainOperands debug hoperation
  have hassigns : n.Assigns id := by
    refine (hwired.assigned id htarget).resolve_right ?_
    rintro ⟨w, hw, hvalued⟩
    rw [hv] at hw
    cases hw
    rw [hvalue] at hvalued
    cases hvalued
  have hmem := mem_writes_of_assigns hs hassigns (operand?_of_declared? hv)
  exact ⟨n, s, statementAt?_eq_some_iff.2 ⟨hn, hs, Statement.isEmpty_render hmem⟩, hmem⟩

end Graph

/-- The source of the stage holds the declarations of the variables of file scope that the roots reach,
and the lines of the statements of `main` in their order. -/
structure CompiledStage.Shows (settings : Settings) (g : Graph) (roots : List NodeId)
    (c : CompiledStage) : Prop where
  declarations : (layoutDeclarations (orderDeclarations g.stage
    ((g.fileVariables roots).filterMap Variable.globalDeclaration))).toList <:+: c.source.toList
  main : ("\n".intercalate ((g.statements settings.debugNodes roots).flatMap
    fun e => MainBody.linesOf e.1 e.2)).toList <:+: c.source.toList

/-- The source of a sound graph shows what it declares and what it states. -/
lemma Graph.Sound.shows_compileStage {g : Graph} {roots : List NodeId} (h : g.Sound roots)
    (pool : SymbolPool) (settings : Settings) (hroots : roots ≠ []) :
    (compileStage pool {} settings g roots).Shows settings g roots := by
  have hcomplete := h.complete_compileStage pool settings hroots
  refine ⟨hcomplete.fileBlock, ?_⟩
  rw [statements, ← lines_ofNodes]
  exact hcomplete.main

end SceneShading
