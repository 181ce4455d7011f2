import SceneShading.Node.Catalogue

/-!
# Graph descriptions

A description lists nodes by their type names and arguments, wires them by identifiers, and names
its roots. A reference that starts with the literal mark is no identifier but text for the code.
A description is *valid* when it has roots, its identifiers are distinct and every reference and
root is declared.
-/

namespace SceneShading

/-- References by pin, with the pins in ascending order and each at most once. -/
structure PinMap where
  entries : List (String × String) := []
  ascending : entries.Pairwise (·.1 < ·.1) := by decide
deriving Repr, DecidableEq

namespace PinMap

instance : Inhabited PinMap := ⟨{}⟩

/-- Sorted entries with the reference of a pin set. -/
def setEntry (pin reference : String) : List (String × String) → List (String × String)
  | [] => [(pin, reference)]
  | e :: r =>
    if pin < e.1 then (pin, reference) :: e :: r
    else if pin = e.1 then (pin, reference) :: r
    else e :: setEntry pin reference r

theorem mem_setEntry {pin reference : String} {entries : List (String × String)}
    {e : String × String} (h : e ∈ setEntry pin reference entries) :
    e = (pin, reference) ∨ e ∈ entries := by
  induction entries with
  | nil => simpa [setEntry] using h
  | cons a r ih =>
    simp only [setEntry] at h
    split at h
    · simpa using h
    · split at h
      · rcases List.mem_cons.1 h with h | h
        · exact .inl h
        · exact .inr (.tail _ h)
      · rcases List.mem_cons.1 h with h | h
        · exact .inr (h ▸ .head _)
        · exact (ih h).imp_right (.tail _)

theorem setEntry_ascending {pin reference : String} {entries : List (String × String)}
    (h : entries.Pairwise (·.1 < ·.1)) : (setEntry pin reference entries).Pairwise (·.1 < ·.1) := by
  induction entries with
  | nil => simp [setEntry]
  | cons a r ih =>
    obtain ⟨ha, hr⟩ := List.pairwise_cons.1 h
    simp only [setEntry]
    split
    · rename_i hlt
      refine List.pairwise_cons.2 ⟨?_, h⟩
      intro b hb
      rcases List.mem_cons.1 hb with rfl | hb
      · exact hlt
      · exact String.lt_trans hlt (ha b hb)
    · split
      · rename_i heq
        exact List.pairwise_cons.2 ⟨fun b hb => heq ▸ ha b hb, hr⟩
      · rename_i hlt hne
        refine List.pairwise_cons.2 ⟨?_, ih hr⟩
        intro b hb
        rcases mem_setEntry hb with rfl | hb
        · rcases Std.lt_trichotomy pin a.1 with h | h | h
          · exact absurd h hlt
          · exact absurd h hne
          · exact h
        · exact ha b hb

/-- The map with the reference of a pin set. -/
def insert (m : PinMap) (pin reference : String) : PinMap :=
  ⟨setEntry pin reference m.entries, setEntry_ascending m.ascending⟩

/-- The map of a list, where the last reference of a pin wins. -/
def ofList (entries : List (String × String)) : PinMap :=
  entries.foldl (fun m e => m.insert e.1 e.2) {}

end PinMap

/-- How the inputs or the outputs of a described node refer to other nodes. -/
inductive PinsDescription where
  | single (reference : String)
  | positional (references : List String)
  | named (pins : PinMap)
deriving Repr, DecidableEq, Inhabited

namespace PinsDescription

/-- Every reference, literals included. -/
def references : PinsDescription → List String
  | single reference => [reference]
  | positional references => references
  | named pins => pins.entries.map (·.2)

end PinsDescription

/-- A described node. -/
structure NodeDescription where
  id : String
  nodeType : String
  args : List NodeArg := []
  inputs : Option PinsDescription := none
  outputs : Option PinsDescription := none
  comment : Option String := none
deriving Repr, DecidableEq, Inhabited

namespace NodeDescription

/-- Every reference of a node, inputs first. -/
def references (n : NodeDescription) : List String :=
  (n.inputs.toList ++ n.outputs.toList).flatMap PinsDescription.references

end NodeDescription

/-- A described graph. -/
structure Description where
  nodes : List NodeDescription := []
  roots : List String := []
deriving Repr, DecidableEq, Inhabited

/-- Why a description is refused. -/
inductive DescriptionError where
  /-- The text is not the JSON of a description. -/
  | malformed
  | noRoots
  | duplicateId (id : String)
  | unknownReference (node reference : String)
  | unknownRoot (root : String)
deriving Repr, DecidableEq, Inhabited

namespace DescriptionError

/-- The name of the family that an error belongs to. -/
def kindName : DescriptionError → String
  | malformed => "Json"
  | unknownReference .. => "Shader"
  | noRoots | duplicateId _ | unknownRoot _ => "InvalidDescription"

/-- The wording of an error; what JSON finds wrong with a text has none. -/
def message? : DescriptionError → Option String
  | malformed => none
  | noRoots => some "Invalid graph description: no roots"
  | duplicateId id => some ("Invalid graph description: duplicate node id '" ++ id ++ "'")
  | unknownReference node reference =>
    some ("Shader graph error: " ++ (Diagnostic.unknownReference node reference).message)
  | unknownRoot root => some ("Invalid graph description: unknown root '" ++ root ++ "'")

end DescriptionError

namespace Description

/-- The text behind the literal mark, if the reference has the mark. -/
def literal? (reference : String) : Option String :=
  match reference.toList with
  | '=' :: text => some (String.ofList text)
  | _ => none

/-- The identifiers in order. -/
def ids (d : Description) : List String := d.nodes.map (·.id)

/-- The first identifier that an earlier node has. -/
def firstDuplicate? : List String → List String → Option String
  | _, [] => none
  | seen, id :: r => if seen.contains id then some id else firstDuplicate? (id :: seen) r

/-- The reference is a literal or declared. -/
def resolves (d : Description) (reference : String) : Bool :=
  (literal? reference).isSome || d.ids.contains reference

/-- The first reference that is not declared, with its node. -/
def firstUnresolved? (d : Description) : Option (String × String) :=
  (d.nodes.flatMap fun n => n.references.map (n.id, ·)).find? fun r => !d.resolves r.2

/-- The description is valid, or the first thing that is wrong with it. -/
def validate (d : Description) : Except DescriptionError Unit :=
  if d.roots.isEmpty then .error .noRoots
  else match firstDuplicate? [] d.ids with
    | some id => .error (.duplicateId id)
    | none =>
      match d.firstUnresolved? with
      | some (node, reference) => .error (.unknownReference node reference)
      | none =>
        match d.roots.find? fun root => !d.ids.contains root with
        | some root => .error (.unknownRoot root)
        | none => .ok ()

end Description

end SceneShading
