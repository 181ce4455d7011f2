import SceneShading.Json.Value

/-!
# JSON tokens

A JSON text is cut into tokens before it is read. Blanks between tokens are spaces, tabs, line
feeds and carriage returns only. A string may not hold control characters, and its escapes must be
complete; a surrogate escape without its partner is complete but denotes no text. A number has no
leading zeros, and a digit stands on both sides of its point.
-/

namespace SceneShading.Json

/-- The lexical units of JSON. -/
inductive Token where
  | openBrace
  | closeBrace
  | openBracket
  | closeBracket
  | comma
  | colon
  | null
  | bool (value : Bool)
  | text (value : Option String)
  | number (value : Number)
deriving Repr, DecidableEq, Inhabited

namespace Token

/-- A blank between tokens. -/
def isBlank (c : Char) : Bool := c == ' ' || c == '\t' || c == '\n' || c == '\r'

/-- The value of a hexadecimal digit. -/
def hexValue (c : Char) : Option Nat :=
  if '0' ≤ c ∧ c ≤ '9' then some (c.toNat - '0'.toNat)
  else if 'a' ≤ c ∧ c ≤ 'f' then some (c.toNat - 'a'.toNat + 10)
  else if 'A' ≤ c ∧ c ≤ 'F' then some (c.toNat - 'A'.toNat + 10)
  else none

/-- The number that four hexadecimal digits spell. -/
def hexUnit (a b c d : Char) : Option Nat := do
  let a ← hexValue a
  let b ← hexValue b
  let c ← hexValue c
  let d ← hexValue d
  return ((a * 16 + b) * 16 + c) * 16 + d

/-- A sixteen bit unit of a string: a whole character, or half of a surrogate pair. -/
inductive Item where
  | whole (c : Char)
  | high (unit : Nat)
  | low (unit : Nat)

/-- The item that a `\u` escape spells. -/
def Item.ofUnit (n : Nat) : Item :=
  if 0xd800 ≤ n ∧ n < 0xdc00 then .high n
  else if 0xdc00 ≤ n ∧ n < 0xe000 then .low n
  else .whole (Char.ofNat n)

/-- The character that a pair of surrogates spells. -/
def pairChar (high low : Nat) : Char :=
  Char.ofNat (0x10000 + (high - 0xd800) * 0x400 + (low - 0xdc00))

/-- The text that items spell, if every surrogate has its partner. Only escapes that follow one
another without a gap are partners. -/
def Item.toText : List Item → Option (List Char)
  | [] => some []
  | .whole c :: r => (c :: ·) <$> toText r
  | .high h :: .low l :: r => (pairChar h l :: ·) <$> toText r
  | .high _ :: _ => none
  | .low _ :: _ => none

/-- The character of a short escape. -/
def shortEscape : Char → Option Char
  | '"' => some '"'
  | '\\' => some '\\'
  | '/' => some '/'
  | 'b' => some '\x08'
  | 'f' => some '\x0c'
  | 'n' => some '\n'
  | 'r' => some '\r'
  | 't' => some '\t'
  | _ => none

/-- The items of a string up to its closing quote, with what follows the quote. The items read so
far are given in reverse. -/
def scanString : List Item → List Char → Option (List Item × List Char)
  | seen, '"' :: r => some (seen.reverse, r)
  | seen, '\\' :: 'u' :: a :: b :: c :: d :: r =>
    match hexUnit a b c d with
    | some n => scanString (.ofUnit n :: seen) r
    | none => none
  | seen, '\\' :: c :: r =>
    match shortEscape c with
    | some e => scanString (.whole e :: seen) r
    | none => none
  | seen, c :: r => if c.toNat < 0x20 then none else scanString (.whole c :: seen) r
  | _, [] => none

/-- The number that decimal digits spell. -/
def digitsValue (ds : List Char) : Nat := ds.foldl (fun n c => n * 10 + (c.toNat - '0'.toNat)) 0

/-- A maximal run of digits and what follows it. -/
def takeDigits (s : List Char) : List Char × List Char :=
  (s.takeWhile Char.isDigit, s.dropWhile Char.isDigit)

/-- The fraction digits after a point, if there is a point; a point alone is refused. -/
def scanFraction : List Char → Option (Option (List Char) × List Char)
  | '.' :: r =>
    let (ds, r) := takeDigits r
    if ds.isEmpty then none else some (some ds, r)
  | r => some (none, r)

/-- The exponent, if there is one; its digits may not be missing. -/
def scanExponent : List Char → Option (Option Int × List Char)
  | c :: r =>
    if c == 'e' || c == 'E' then
      let (sign, r) : Int × List Char := match r with
        | '+' :: r => (1, r)
        | '-' :: r => (-1, r)
        | r => (1, r)
      let (ds, r) := takeDigits r
      if ds.isEmpty then none else some (some (sign * digitsValue ds), r)
    else some (none, c :: r)
  | [] => some (none, [])

/-- An unsigned number with the given sign, and what follows it. -/
def scanUnsigned (isNegative : Bool) (s : List Char) : Option (Number × List Char) := do
  let (ds, r) := takeDigits s
  if ds.isEmpty then none
  else if ds.head? = some '0' && 1 < ds.length then none
  else
    let (fraction, r) ← scanFraction r
    let (exponent, r) ← scanExponent r
    let whole := digitsValue ds
    match fraction, exponent with
    | none, none =>
      if isNegative && whole == 0 then some (.decimal true 0 0, r)
      else some (.integer (if isNegative then -(whole : Int) else whole), r)
    | _, _ =>
      let fs := fraction.getD []
      some (.decimal isNegative (digitsValue (ds ++ fs)) (exponent.getD 0 - fs.length), r)

/-- A number and what follows it. -/
def scanNumber : List Char → Option (Number × List Char)
  | '-' :: r => scanUnsigned true r
  | s => scanUnsigned false s

/-- The token at the start of a text that starts with no blank, and what follows it. -/
def scan : List Char → Option (Token × List Char)
  | '{' :: r => some (.openBrace, r)
  | '}' :: r => some (.closeBrace, r)
  | '[' :: r => some (.openBracket, r)
  | ']' :: r => some (.closeBracket, r)
  | ',' :: r => some (.comma, r)
  | ':' :: r => some (.colon, r)
  | 'n' :: 'u' :: 'l' :: 'l' :: r => some (.null, r)
  | 't' :: 'r' :: 'u' :: 'e' :: r => some (.bool true, r)
  | 'f' :: 'a' :: 'l' :: 's' :: 'e' :: r => some (.bool false, r)
  | '"' :: r => do
    let (items, r) ← scanString [] r
    return (.text ((Item.toText items).map String.ofList), r)
  | s => do
    let (n, r) ← scanNumber s
    return (.number n, r)

/-- The tokens of a text, in reverse after those already found. The fuel counts characters. -/
def scanAll : Nat → List Token → List Char → Option (List Token)
  | _, seen, [] => some seen.reverse
  | 0, _, _ :: _ => none
  | fuel + 1, seen, c :: r =>
    if isBlank c then scanAll fuel seen r
    else match scan (c :: r) with
      | some (t, r) => scanAll fuel (t :: seen) r
      | none => none

/-- The tokens of a text. -/
def ofText (s : List Char) : Option (List Token) := scanAll s.length [] s

end Token

end SceneShading.Json
