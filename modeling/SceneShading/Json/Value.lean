/-!
# JSON values

What a JSON text denotes. Two distinctions that other models drop are kept, because decoding
depends on them: a number written without fraction and exponent is an integer and no other is,
and a string may spell half of a surrogate pair, for which there is no text. Such a string is
`none`; it is harmless where nobody reads it.
-/

namespace SceneShading

/-- A number as it was written. -/
inductive Json.Number where
  /-- Digits with an optional sign; `-0` is not among them. -/
  | integer (value : Int)
  /-- `mantissa · 10 ^ exponent`, with its sign apart. -/
  | decimal (isNegative : Bool) (mantissa : Nat) (exponent : Int)
deriving Repr, DecidableEq, Inhabited

/-- A JSON value. -/
inductive Json where
  | null
  | bool (value : Bool)
  | number (value : Json.Number)
  | text (value : Option String)
  | array (items : List Json)
  | object (members : List (Option String × Json))
deriving Repr, Inhabited

namespace Json

/-- A string value. -/
def ofString (s : String) : Json := .text (some s)

/-- An integer value. -/
def ofInt (i : Int) : Json := .number (.integer i)

/-- A natural number value. -/
def ofNat (n : Nat) : Json := ofInt n

/-- An object from names and values. -/
def ofMembers (members : List (String × Json)) : Json :=
  .object (members.map fun m => (some m.1, m.2))

/-- The value of an optional result; nothing is `null`. -/
def ofOption {α : Type} (f : α → Json) : Option α → Json
  | none => .null
  | some a => f a

/-- An array of strings. -/
def ofStrings (texts : List String) : Json := .array (texts.map ofString)

end Json

end SceneShading
