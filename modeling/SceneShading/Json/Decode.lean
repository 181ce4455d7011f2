import SceneShading.Json.Value

/-!
# Decoding JSON

How records, choices and limited integers are spelled in JSON. A record is an object with each of
its fields at most once, in which unknown members are ignored, or an array of its fields in order,
in which fields may be missing at the end. A choice without content is its name, or an object that
maps its name to `null`.
-/

namespace SceneShading.Json

/-- The text of a string value. -/
def asText : Json → Option String
  | .text t => t
  | _ => none

/-- The value of a truth value. -/
def asBool : Json → Option Bool
  | .bool b => some b
  | _ => none

/-- The value of a number written as an integer. -/
def asInt : Json → Option Int
  | .number (.integer i) => some i
  | _ => none

/-- An integer from `0` up to a bound, which is not included. -/
def asNatBelow (bound : Nat) (j : Json) : Option Nat := do
  let i ← j.asInt
  if 0 ≤ i ∧ i < bound then some i.toNat else none

/-- An array, with every item decoded. -/
def asListOf {α : Type} (decode : Json → Option α) : Json → Option (List α)
  | .array items => items.mapM decode
  | _ => none

/-- The name of a choice without content. -/
def asChoice : Json → Option String
  | .text t => t
  | .object [(some name, .null)] => some name
  | _ => none

/-- An optional value, which may be `null`. -/
def asNullable {α : Type} (decode : Json → Option α) : Json → Option (Option α)
  | .null => some none
  | j => (decode j).map some

/-- The members of an object, if every name is a text. -/
def namedMembers (members : List (Option String × Json)) : Option (List (String × Json)) :=
  members.mapM fun m => m.1.map (·, m.2)

/-- The only member of a name; none if there is no such member. Two members of the name are
refused. -/
def uniqueMember (members : List (String × Json)) (name : String) : Option (Option Json) :=
  match members.filter (·.1 == name) with
  | [] => some none
  | [m] => some (some m.2)
  | _ => none

/-- The fields of a record, in the order of their names; a missing field is `none`. -/
def recordFields (names : List String) : Json → Option (List (Option Json))
  | .object members => do
    let members ← namedMembers members
    names.mapM (uniqueMember members)
  | .array items =>
    if items.length ≤ names.length then
      some (items.map some ++ List.replicate (names.length - items.length) none)
    else none
  | _ => none

/-- A field that must be present. -/
def required {α : Type} (decode : Json → Option α) (field : Option Json) : Option α :=
  field.bind decode

/-- A field that has a default. -/
def optional {α : Type} (decode : Json → Option α) (default : α) : Option Json → Option α
  | none => some default
  | some j => decode j

end SceneShading.Json
