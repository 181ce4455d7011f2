/-!
# Splitting texts

A text is cut at every character of a class; `n` cuts leave `n + 1` pieces. Lines and words are
read off the pieces: lines are cut at line feeds, words are the pieces that are not empty.
-/

namespace SceneShading.Text

/-- The pieces between the characters of a class. -/
def split (cut : Char → Bool) : List Char → List (List Char)
  | [] => [[]]
  | c :: r =>
    if cut c then [] :: split cut r
    else match split cut r with
      | [] => [[c]]
      | p :: ps => (c :: p) :: ps

theorem split_nil (cut : Char → Bool) : split cut [] = [[]] := rfl

theorem split_ne_nil (cut : Char → Bool) (s : List Char) : split cut s ≠ [] := by
  cases s with
  | nil => simp [split]
  | cons c r =>
    simp only [split]
    split
    · simp
    · split <;> simp

/-- A line loses one carriage return that stands at its end. -/
def dropReturn (line : List Char) : List Char :=
  if line.getLast? = some '\r' then line.dropLast else line

/-- The lines that pieces between line feeds stand for: the last piece is a line only if it is not
empty, and it keeps its carriage return. -/
def linesOfPieces : List (List Char) → List (List Char)
  | [] => []
  | [last] => if last.isEmpty then [] else [last]
  | p :: ps => dropReturn p :: linesOfPieces ps

/-- The lines of a text, without their line feeds. -/
def linesOf (s : List Char) : List (List Char) := linesOfPieces (split (· == '\n') s)

/-- The lines of a text, without their line feeds. -/
def lines (s : String) : List String := (linesOf s.toList).map String.ofList

/-- The pieces of a text that are not empty. -/
def tokens (cut : Char → Bool) (s : String) : List String :=
  ((split cut s.toList).filter (!·.isEmpty)).map String.ofList

/-- A text occurs inside another. -/
def occursIn (pattern : List Char) : List Char → Bool
  | [] => pattern.isEmpty
  | c :: r => pattern.isPrefixOf (c :: r) || occursIn pattern r

end SceneShading.Text
