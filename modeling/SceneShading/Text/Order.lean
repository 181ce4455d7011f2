/-!
# The order of texts

Texts are ordered by the code points of their characters, which is also the order of their UTF-8
bytes.
-/

namespace SceneShading.Text

/-- The texts in ascending order, repetitions kept. -/
def sort (texts : List String) : List String := texts.mergeSort fun a b => decide (¬ b < a)

/-- A list without the entries that repeat their predecessor. -/
def dropRepeats : List String → List String
  | [] => []
  | [a] => [a]
  | a :: b :: r => if a = b then dropRepeats (b :: r) else a :: dropRepeats (b :: r)

/-- The texts in ascending order, each once. -/
def sortUnique (texts : List String) : List String := dropRepeats (sort texts)

theorem sort_perm (texts : List String) : (sort texts).Perm texts := List.mergeSort_perm _ _

end SceneShading.Text
