import SceneShading.Text.Split

/-!
# Blank characters

The characters of the property `White_Space`, and the words that they separate.
-/

namespace SceneShading.Text

/-- The code points of the property `White_Space`, as ranges with both ends included. -/
def blankRanges : List (Nat × Nat) :=
  [(0x09, 0x0d), (0x20, 0x20), (0x85, 0x85), (0xa0, 0xa0), (0x1680, 0x1680), (0x2000, 0x200a),
   (0x2028, 0x2029), (0x202f, 0x202f), (0x205f, 0x205f), (0x3000, 0x3000)]

/-- The character is white space. -/
def isBlank (c : Char) : Bool := blankRanges.any fun r => r.1 ≤ c.toNat && c.toNat ≤ r.2

/-- The maximal runs of characters that are not blank. -/
def words (s : String) : List String := tokens isBlank s

/-- A text without the blank characters it starts with. -/
def trimStart (s : List Char) : List Char := s.dropWhile isBlank

/-- A text without the blank characters it ends with. -/
def trimEnd (s : List Char) : List Char := (trimStart s.reverse).reverse

example : (blankRanges.map fun r => r.2 + 1 - r.1).sum = 25 := rfl

end SceneShading.Text
