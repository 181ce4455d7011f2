import SceneShading.Json.Token

/-!
# Reading JSON

A text is read by recursive descent over its tokens. The whole text must be one value: a trailing
comma, a missing comma and anything after the value are refused. The number of tokens bounds the
depth of the descent, so that it needs no other limit.
-/

namespace SceneShading.Json

mutual

/-- One value at the start of the tokens, and the tokens after it. -/
def readValue : Nat → List Token → Option (Json × List Token)
  | 0, _ => none
  | _ + 1, .null :: r => some (.null, r)
  | _ + 1, .bool b :: r => some (.bool b, r)
  | _ + 1, .text t :: r => some (.text t, r)
  | _ + 1, .number n :: r => some (.number n, r)
  | _ + 1, .openBracket :: .closeBracket :: r => some (.array [], r)
  | fuel + 1, .openBracket :: r =>
    match readItems fuel r with
    | some (items, r) => some (.array items, r)
    | none => none
  | _ + 1, .openBrace :: .closeBrace :: r => some (.object [], r)
  | fuel + 1, .openBrace :: r =>
    match readMembers fuel r with
    | some (members, r) => some (.object members, r)
    | none => none
  | _ + 1, _ => none

/-- The items of an array up to its closing bracket. -/
def readItems : Nat → List Token → Option (List Json × List Token)
  | 0, _ => none
  | fuel + 1, ts =>
    match readValue fuel ts with
    | some (v, .comma :: r) =>
      match readItems fuel r with
      | some (vs, r) => some (v :: vs, r)
      | none => none
    | some (v, .closeBracket :: r) => some ([v], r)
    | _ => none

/-- The members of an object up to its closing brace. -/
def readMembers : Nat → List Token → Option (List (Option String × Json) × List Token)
  | 0, _ => none
  | fuel + 1, .text key :: .colon :: r =>
    match readValue fuel r with
    | some (v, .comma :: r) =>
      match readMembers fuel r with
      | some (ms, r) => some ((key, v) :: ms, r)
      | none => none
    | some (v, .closeBrace :: r) => some ([(key, v)], r)
    | _ => none
  | _ + 1, _ => none

end

/-- The value of a text that is one JSON value and nothing else. -/
def parse (s : String) : Option Json := do
  let tokens ← Token.ofText s.toList
  match readValue (tokens.length + 1) tokens with
  | some (v, []) => some v
  | _ => none

end SceneShading.Json
