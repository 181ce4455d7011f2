/-!
# Snippets

A snippet is code in which `%name` stands for the variable wired to the pin `name`. A name is the
longest run of letters, digits and underscores of ASCII behind the mark; a mark without a name
stands for itself. The text is cut into parts from its end, so that every character is looked at
once; `Snippet.text_parts` says that nothing is lost.
-/

namespace SceneShading.Snippet

/-- A part of a snippet. -/
inductive Part where
  /-- Text that is kept. -/
  | text (chars : List Char)
  /-- A mark and the name of a pin. -/
  | pin (name : List Char)
deriving Repr, DecidableEq

/-- A character of a pin name. -/
def isNameChar (c : Char) : Bool := c.isAlphanum || c == '_'

/-- The run of name characters that a text starts with, and the parts of what follows it. -/
def cut : List Char → List Char × List Part
  | [] => ([], [])
  | c :: r =>
    let (run, parts) := cut r
    if isNameChar c then (c :: run, parts)
    else if c = '%' && !run.isEmpty then ([], .pin run :: parts)
    else ([], .text (c :: run) :: parts)

/-- The parts of a snippet. -/
def parts (code : List Char) : List Part :=
  let (run, parts) := cut code
  if run.isEmpty then parts else .text run :: parts

/-- A part as it was written. -/
def Part.source : Part → List Char
  | .text chars => chars
  | .pin name => '%' :: name

theorem cut_source (code : List Char) :
    (cut code).1 ++ (cut code).2.flatMap Part.source = code := by
  induction code with
  | nil => rfl
  | cons c r ih =>
    simp only [cut]
    split
    · simpa using ih
    · split
      · rename_i h
        simp only [Bool.and_eq_true, decide_eq_true_eq] at h
        simpa [Part.source, h.1] using ih
      · simpa [Part.source] using ih

/-- The parts of a snippet spell the snippet. -/
theorem text_parts (code : List Char) : (parts code).flatMap Part.source = code := by
  have h := cut_source code
  unfold parts
  generalize cut code = p at h ⊢
  obtain ⟨run, ps⟩ := p
  cases run <;> simp_all [Part.source]

end SceneShading.Snippet
