import SceneShading.Diagnostic
import SceneShading.Json.Printer
import SceneShading.Text.Blank

/-!
# Program skeletons

A skeleton is a text with placeholders and statement lines. A placeholder is a name between double
braces. A statement line starts with two dollar signs, which blanks may precede; it vanishes with
its line end, and it opens, divides or closes a repetition over a list or a choice. The skeleton is
first cut into segments, then the segments are nested into items, and the items are rendered with
the values of the names. One line end at the end of a skeleton does not count.

A name has ASCII letters, digits and underscores, and no digit first. Some names are constants; these
and a few others are reserved: no repetition can give them a value.

A line ends at a line feed or at a carriage return. A statement line takes one line feed and then one
carriage return with it, as far as they follow in this order; so of the pair of a carriage return and
a line feed, the line feed stays in the text. Blanks before the end of a statement line do not count,
whatever their script; between its words only the blanks of ASCII can stand.
-/

namespace SceneShading.Source

/-- A value that a skeleton can name. -/
inductive SkeletonValue where
  | absent
  | flag (b : Bool)
  | text (text : String)
  | list (texts : List String)
deriving Repr, DecidableEq, Inhabited

namespace SkeletonValue

/-- The value makes a choice hold. -/
def holds : SkeletonValue → Bool
  | absent => false
  | flag b => b
  | text s => !s.isEmpty
  | list xs => !xs.isEmpty

/-- The value in place of a placeholder; a list has its texts as literals between brackets. -/
def render : SkeletonValue → String
  | absent => "None"
  | flag b => if b then "True" else "False"
  | text s => s
  | list xs => "[" ++ ", ".intercalate (xs.map Json.quote) ++ "]"

/-- The texts that a repetition over the value goes through, if it can be repeated over: a text is
gone through character by character, and what is absent has none. -/
def rounds? : SkeletonValue → Option (List String)
  | absent => some []
  | flag _ => none
  | text s => some (s.toList.map String.singleton)
  | list xs => some xs

end SkeletonValue

/-- The values of the names of a skeleton; the innermost comes first. -/
abbrev SkeletonScope := List (String × SkeletonValue)

/-- The names that have the same value in every skeleton. -/
def SkeletonScope.constants : SkeletonScope :=
  [("true", .flag true), ("True", .flag true), ("false", .flag false), ("False", .flag false),
   ("none", .absent), ("None", .absent)]

/-- The names that no repetition can give a value to. -/
def reservedNames : List String := SkeletonScope.constants.map Prod.fst ++ ["loop", "self", "in"]

/-- The text is a name. -/
def isName (s : String) : Bool :=
  match s.toList with
  | [] => false
  | c :: r => (c.isAlpha || c == '_') && r.all fun c => c.isAlphanum || c == '_'

/-- The text can be read as a name that has a value; negation is no name. -/
def isReadable (s : String) : Bool := isName s && s != "not"

/-- The text can be the name that a repetition gives values to. -/
def isBindable (s : String) : Bool := isName s && s ∉ reservedNames

/-- A statement line. -/
inductive SkeletonStatement where
  | loop (name list : String)
  | endLoop
  | choice (name : String)
  | otherwise
  | endChoice
deriving Repr, DecidableEq, Inhabited

/-- The character ends a line. -/
def endsLine (c : Char) : Bool := c == '\n' || c == '\r'

/-- The character separates the words of a statement or surrounds the name of a placeholder. -/
def isGap (c : Char) : Bool := c == ' ' || c == '\t' || c == '\x0c' || endsLine c

/-- A blank that can stand before the mark of a statement line. -/
def isIndent (c : Char) : Bool := Text.isBlank c && !endsLine c

/-- The statement of a line without its mark. -/
def SkeletonStatement.ofLine? (line : List Char) : Option SkeletonStatement :=
  match Text.tokens isGap (String.ofList (Text.trimEnd line)) with
  | ["for", name, "in", list] =>
    if isBindable name && isReadable list then some (.loop name list) else none
  | ["endfor"] => some .endLoop
  | ["if", name] => if isReadable name then some (.choice name) else none
  | ["else"] => some .otherwise
  | ["endif"] => some .endChoice
  | _ => none

/-- A part of a skeleton, before nesting. -/
inductive SkeletonSegment where
  | char (c : Char)
  | placeholder (name : String)
  | statement (s : SkeletonStatement)
deriving Repr, DecidableEq, Inhabited

/-- The characters before the closing braces of a placeholder, and what follows the braces. -/
def closePlaceholder : List Char → Option (List Char × List Char)
  | '}' :: '}' :: r => some ([], r)
  | c :: r => (closePlaceholder r).map fun p => (c :: p.1, p.2)
  | [] => none

/-- The name in a placeholder. -/
def placeholderName? (inner : List Char) : Option String :=
  match Text.tokens isGap (String.ofList inner) with
  | [name] => if isReadable name then some name else none
  | _ => none

/-- What follows the mark of a statement line, if the text starts with one. -/
def statementLine? (s : List Char) : Option (List Char) :=
  match s.dropWhile isIndent with
  | '$' :: '$' :: r => some r
  | _ => none

/-- A text without the first character, if it is the given one. -/
def dropOne (c : Char) : List Char → List Char
  | [] => []
  | a :: r => if a = c then r else a :: r

/-- A text without the line end of a statement line. -/
def dropLineEnd (s : List Char) : List Char := dropOne '\r' (dropOne '\n' s)

/-- The segments of a skeleton; at the start of a line, statements are recognised. The fuel counts
characters. -/
def segments : Nat → Bool → List Char → Except SkeletonError (List SkeletonSegment)
  | _, _, [] => .ok []
  | 0, _, _ :: _ => .ok []
  | fuel + 1, startsLine, c :: r =>
    match if startsLine then statementLine? (c :: r) else none with
    | some r => do
      let line := r.takeWhile (!endsLine ·)
      match SkeletonStatement.ofLine? line with
      | some s =>
        return .statement s :: (← segments fuel true (dropLineEnd (r.dropWhile (!endsLine ·))))
      | none => .error (.badStatement (String.ofList line))
    | none =>
      match c, r with
      | '{', '{' :: r => do
        match closePlaceholder r with
        | none => .error .badPlaceholder
        | some (inner, r) =>
          match placeholderName? inner with
          | some name => return .placeholder name :: (← segments fuel false r)
          | none => .error .badPlaceholder
      | c, r => return .char c :: (← segments fuel (endsLine c) r)

/-- A part of a skeleton. -/
inductive SkeletonItem where
  | char (c : Char)
  | placeholder (name : String)
  /-- A repetition, and what stands in its place when there is no round. -/
  | loop (name list : String) (body other : List SkeletonItem)
  | choice (name : String) (body other : List SkeletonItem)
deriving Repr, Inhabited

/-- What ended a run of items. -/
inductive SkeletonEnd where
  | text
  | endLoop
  | otherwise
  | endChoice
deriving Repr, DecidableEq, Inhabited

/-- How deep a skeleton can be nested. Every block counts one level; the list of a repetition counts
one level more, the name of a choice or a placeholder two. -/
def deepestLevel : Nat := 150

/-- Refuses a level that is too deep. -/
def checkLevel (level : Nat) : Except SkeletonError Unit :=
  if level ≤ deepestLevel then .ok () else .error .nestedTooDeep

/-- The items up to the end of the text or of the block they are in, what ended them, and the
segments that follow. The level counts the blocks around the items, the fuel counts segments. -/
def nestItems : Nat → Nat → List SkeletonSegment →
    Except SkeletonError (List SkeletonItem × SkeletonEnd × List SkeletonSegment)
  | _, _, [] => .ok ([], .text, [])
  | 0, _, r => .ok ([], .text, r)
  | fuel + 1, level, .char c :: r => do
    let (items, last, r) ← nestItems fuel level r
    return (.char c :: items, last, r)
  | fuel + 1, level, .placeholder name :: r => do
    checkLevel (level + 2)
    let (items, last, r) ← nestItems fuel level r
    return (.placeholder name :: items, last, r)
  | _ + 1, _, .statement .endLoop :: r => .ok ([], .endLoop, r)
  | _ + 1, _, .statement .otherwise :: r => .ok ([], .otherwise, r)
  | _ + 1, _, .statement .endChoice :: r => .ok ([], .endChoice, r)
  | fuel + 1, level, .statement (.loop name list) :: r => do
    checkLevel (level + 2)
    let (body, last, r) ← nestItems fuel (level + 1) r
    let (other, last, r) ←
      if last = .otherwise then nestItems fuel (level + 1) r else .ok ([], last, r)
    if last ≠ .endLoop then .error (.badStatement "for")
    else
      let (items, last, r) ← nestItems fuel level r
      return (.loop name list body other :: items, last, r)
  | fuel + 1, level, .statement (.choice name) :: r => do
    checkLevel (level + 3)
    let (body, last, r) ← nestItems fuel (level + 1) r
    let (other, last, r) ←
      if last = .otherwise then nestItems fuel (level + 1) r else .ok ([], last, r)
    if last ≠ .endChoice then .error (.badStatement "if")
    else
      let (items, last, r) ← nestItems fuel level r
      return (.choice name body other :: items, last, r)

/-- The items of a skeleton. -/
def skeletonItems (text : String) : Except SkeletonError (List SkeletonItem) := do
  let chars := text.toList
  let chars := Text.dropReturn (if chars.getLast? = some '\n' then chars.dropLast else chars)
  let segments ← segments chars.length true chars
  match ← nestItems segments.length 0 segments with
  | (items, .text, _) => return items
  | (_, last, _) => .error (.badStatement (match last with
    | .endLoop => "endfor"
    | .otherwise => "else"
    | _ => "endif"))

mutual

/-- The texts that one part of a skeleton becomes when the names have values. -/
def renderItem (scope : SkeletonScope) : SkeletonItem → Except SkeletonError (List String)
  | .char c => .ok [String.singleton c]
  | .placeholder name =>
    match scope.lookup name with
    | some v => .ok [v.render]
    | none => .error (.unknownName name)
  | .loop name list body other =>
    match (scope.lookup list).map SkeletonValue.rounds? with
    | some (some []) => renderItems scope other
    | some (some texts) => do
      let rounds ← texts.mapM fun text => renderItems ((name, .text text) :: scope) body
      return rounds.flatten
    | some none => .error (.noList list)
    | none => .error (.unknownName list)
  | .choice name body other =>
    if ((scope.lookup name).map SkeletonValue.holds).getD false then renderItems scope body
    else renderItems scope other

/-- The texts that the parts of a skeleton become when the names have values. -/
def renderItems (scope : SkeletonScope) : List SkeletonItem → Except SkeletonError (List String)
  | [] => .ok []
  | item :: r => do
    let texts ← renderItem scope item
    return texts ++ (← renderItems scope r)

end

/-- A skeleton with the names replaced by their values. -/
def renderSkeleton (text : String) (scope : SkeletonScope) : Except SkeletonError String := do
  return String.join (← renderItems (scope ++ .constants) (← skeletonItems text))

end SceneShading.Source
