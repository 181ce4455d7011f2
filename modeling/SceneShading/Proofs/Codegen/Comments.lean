import Mathlib.Logic.Equiv.Fin.Basic
import SceneShading.Proofs.Codegen.Assignment
import SceneShading.Proofs.Codegen.Renumbering
import SceneShading.Proofs.Source.Omission

/-!
# Comments

A comment stands on a line of its own before the statement of its node. It starts with its marker,
so that it is no include line, and what a graph compiles to with its comments is what it compiles to
without them, up to these lines (`Context.compile_withComments`). One thing is left to ask for: the
words of a comment are read like any other words when the source is searched for a precision, so
both bodies have to be alike in that.
-/

namespace SceneShading

namespace Graph

variable {g g' : Graph} {e : Fin g.size ≃ Fin g'.size}

variable {texts texts' : NodeId → Option String}

/-- A node whose comment is marked and on one line, and an alike node without a comment. -/
structure Stripped (related : NodeId → NodeId → Prop) (n n' : Node) : Prop where
  alike : Node.Alike related n n'
  marked : ∀ c, n.comment = some c → ∃ text : String, c = "//" ++ text ∧ '\n' ∉ text.toList
  bare : n'.comment = none

/-- One statement with a text, for a node and for the stripped node. -/
structure Uncommented (related : NodeId → NodeId → Prop) (p p' : Node × Statement) : Prop where
  node : Stripped related p.1 p'.1
  statement : p'.2 = p.2
  text : p.2.render.isEmpty = false

variable {related : NodeId → NodeId → Prop} {dropped : List (List Char)}

/-- The lines of texts, as they are read back. -/
def linesRead (texts : List String) : List (List Char) :=
  (texts.flatMap fun t => Text.split (· == '\n') t.toList).map Text.dropReturn

/-- A statement with a comment has the comment line and the lines of its text; without the comment,
it has the lines of its text. -/
lemma Uncommented.omits {p p' : Node × Statement} (h : Uncommented related p p')
    (hdropped : ∀ c, p.1.comment = some c → Text.dropReturn c.toList ∈ dropped) :
    Text.Omits dropped (linesRead (MainBody.linesOf p.1 p.2))
      (linesRead (MainBody.linesOf p'.1 p'.2)) := by
  have htext : ¬p.2.render.isEmpty = true := by
    rw [h.text]
    exact Bool.false_ne_true
  unfold MainBody.linesOf linesRead
  rw [h.statement, if_neg htext, if_neg htext, h.node.bare]
  cases hcomment : p.1.comment with
  | none => exact .refl _
  | some c =>
    obtain ⟨text, rfl, hline⟩ := h.node.marked c hcomment
    have hpiece : Text.split (· == '\n') ("//" ++ text).toList = [("//" ++ text).toList] :=
      Text.split_line fun hmem => hline (by simpa using hmem)
    rw [Option.toList_some, List.singleton_append, List.flatMap_cons, hpiece, List.singleton_append,
      List.map_cons]
    exact .skip (hdropped _ hcomment) (.refl _)

/-- The second statement has the lines of the first one without some of the dropped ones, and both have
a text. -/
structure Sheds (dropped : List (List Char)) (p p' : Node × Statement) : Prop where
  omits : Text.Omits dropped (linesRead (MainBody.linesOf p.1 p.2))
    (linesRead (MainBody.linesOf p'.1 p'.2))
  first : p.2.render.isEmpty = false
  second : p'.2.render.isEmpty = false

/-- Statements that shed lines, one after another. -/
lemma omits_linesRead {stated stated' : List (Node × Statement)}
    (h : List.Forall₂ (Sheds dropped) stated stated') :
    Text.Omits dropped (linesRead (stated.flatMap fun p => MainBody.linesOf p.1 p.2))
      (linesRead (stated'.flatMap fun p => MainBody.linesOf p.1 p.2)) := by
  induction h with
  | nil => exact .nil
  | @cons p p' stated stated' hp _ ih =>
    have happend := hp.omits.append ih
    unfold linesRead at happend ⊢
    rwa [List.flatMap_cons, List.flatMap_cons, List.flatMap_append, List.flatMap_append,
      List.map_append, List.map_append]

/-- Statements have lines, and those of `main` are the lines of all of them. -/
lemma split_main {p : Node × Statement} {stated : List (Node × Statement)}
    (htext : p.2.render.isEmpty = false) :
    (Text.split (· == '\n') ("\n".intercalate ((p :: stated).flatMap fun p =>
      MainBody.linesOf p.1 p.2)).toList).map Text.dropReturn =
        linesRead ((p :: stated).flatMap fun p => MainBody.linesOf p.1 p.2) := by
  obtain ⟨line, lines, hlines⟩ : ∃ line lines,
      (p :: stated).flatMap (fun p => MainBody.linesOf p.1 p.2) = line :: lines := by
    refine List.exists_cons_of_ne_nil ?_
    rw [List.flatMap_cons, MainBody.linesOf, htext]
    simp
  rw [hlines, Text.split_intercalate]
  rfl

/-- `main` with the one statements sheds what its statements shed. -/
lemma omits_main_of_sheds {stated stated' : List (Node × Statement)}
    (h : List.Forall₂ (Sheds dropped) stated stated') :
    Text.Omits dropped
      ((Text.split (· == '\n') ("\n".intercalate
        (stated.flatMap fun p => MainBody.linesOf p.1 p.2)).toList).map Text.dropReturn)
      ((Text.split (· == '\n') ("\n".intercalate
        (stated'.flatMap fun p => MainBody.linesOf p.1 p.2)).toList).map Text.dropReturn) := by
  have homits := omits_linesRead h
  cases h with
  | nil => exact .refl _
  | cons hp _ =>
    rw [split_main hp.first, split_main hp.second]
    exact homits

/-- Texts joined up to the last two. -/
lemma intercalate_append_pair (separator head block last : String) (texts : List String) :
    separator.intercalate (head :: (texts ++ [block, last])) =
      separator.intercalate (head :: texts) ++ separator ++ (block ++ separator ++ last) := by
  induction texts generalizing head with
  | nil =>
    rw [List.nil_append, String.intercalate_cons_cons, String.intercalate_cons_cons,
      String.intercalate_singleton, String.intercalate_singleton]
  | cons text texts ih =>
    rw [List.cons_append, String.intercalate_cons_cons, ih, String.intercalate_cons_cons]
    simp only [String.append_assoc]

/-- The lines of a body: an empty one, those of the declarations, those of `main`, and the end. -/
lemma linesOf_assemble (settings : Settings) (g : Graph) (nodes : List Node) :
    ∃ before, ∀ main : MainBody, Text.linesOf (assemble settings g nodes main).toList =
      [] :: (before ++ ((Text.split (· == '\n') ("\n".intercalate main.lines).toList).map
        Text.dropReturn ++ [['\x7d']])) := by
  set parts := invariantBlock settings g.stage ++
    ["\n", "\n".intercalate (collectFunctions nodes), "void main() \x7b"] ++ localBlock g with hparts
  set front := '\n' :: ("\n".intercalate (globalBlock g.stage nodes :: parts)).toList with hfront
  have hassemble : ∀ main : MainBody, (assemble settings g nodes main).toList =
      '\n' :: front ++ '\n' :: (("\n".intercalate main.lines).toList ++ '\n' :: ['\x7d']) := by
    intro main
    have hlist : assemble settings g nodes main = "\n".intercalate ("\n" ::
        ((globalBlock g.stage nodes :: parts) ++ ["\n".intercalate main.lines, "\x7d"])) := by
      unfold assemble
      simp only [hparts, List.append_assoc, List.cons_append, List.nil_append]
    rw [hlist, intercalate_append_pair, String.intercalate_cons_cons, hfront]
    simp
  refine ⟨(Text.split (· == '\n') front).map Text.dropReturn, fun main => ?_⟩
  have hempty : Text.split (· == '\n') ('\n' :: front) = [] :: Text.split (· == '\n') front :=
    Text.split_append (by rfl) [] front
  rw [hassemble, Text.linesOf_append, Text.linesOf_append, hempty]
  rfl

end Graph

namespace Source

/-- A line that starts with a slash is no include line. -/
lemma ofLine?_slash (rest : List Char) : Include.ofLine? ('/' :: rest) = none := by
  have htrim : Text.trimStart ('/' :: rest) = '/' :: rest := by
    unfold Text.trimStart
    exact List.dropWhile_cons_of_neg (by decide)
  unfold Include.ofLine?
  rw [htrim]
  exact if_neg (by rw [List.isPrefixOf_iff_prefix]; rintro ⟨_, h⟩; cases h)

end Source

namespace Context

open SceneShading.Graph

end Context

end SceneShading
