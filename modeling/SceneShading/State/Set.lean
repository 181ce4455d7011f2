import SceneShading.Attribute.Basic
import SceneShading.Attribute.Mode
import SceneShading.Description.Basic
import SceneShading.State.Table

/-!
# State sets

A state set is a bundle of attributes, of attributes per texture unit and of uniforms, each with its
inheritance mode, and possibly of a described material. State sets are shared, and a set that is
shared does not change any more: it gets an identity, which tells it apart from all other sets,
those of the same content included.

An attribute is made when it is set, and it too is told apart from equal ones. A copy of a shared set
has the very attributes of that set until others are set in their places, so that an attribute is
known by its slot and by the shared set that it was made for.
-/

namespace SceneShading

/-- A list of tables, long enough to have one at a place. -/
def growTables {κ α : Type} (tables : List (Table κ α)) (length : Nat) : List (Table κ α) :=
  tables ++ List.replicate (length - tables.length) .empty

theorem length_growTables {κ α : Type} (tables : List (Table κ α)) (length : Nat) :
    (growTables tables length).length = max tables.length length := by
  simp only [growTables, List.length_append, List.length_replicate]
  omega

/-- An attribute of a set with its mode. -/
structure SetEntry where
  value : Attribute
  mode : Mode
  /-- The shared set that the attribute was made for, if it came into this set by copying. -/
  source : Option Nat := none
deriving Repr, Inhabited

/-- A bundle of attributes and uniforms. -/
structure StateSet where
  name : Option String := none
  attributes : Table AttributeKey SetEntry := .empty
  units : List (Table Kind SetEntry) := []
  uniforms : Table String (UniformValue × Mode) := .empty
  material : Option Description := none
deriving Inhabited

namespace StateSet

/-- The set with an attribute in a texture unit. -/
def setUnitAttribute (s : StateSet) (unit : Nat) (a : Attribute) (mode : Mode) : StateSet :=
  { s with units := (growTables s.units (unit + 1)).modify unit (·.insert a.kind { value := a, mode }) }

/-- The set with an attribute; texture attributes go to the first unit. -/
def setAttribute (s : StateSet) (a : Attribute) (mode : Mode) : StateSet :=
  if a.kind.isTextureKind then s.setUnitAttribute 0 a mode
  else { s with attributes := s.attributes.insert a.key { value := a, mode } }

/-- The set without the attribute of a key. -/
def removeAttribute (s : StateSet) (key : AttributeKey) : StateSet :=
  { s with attributes := s.attributes.erase key }

/-- The set with a uniform. -/
def setUniform (s : StateSet) (name : String) (value : UniformValue) (mode : Mode) : StateSet :=
  { s with uniforms := s.uniforms.insert name (value, mode) }

/-- The entry of a key. -/
def entryAt? (s : StateSet) (key : AttributeKey) : Option SetEntry := s.attributes.find? key

/-- The entry of a kind in a texture unit. -/
def unitEntryAt? (s : StateSet) (unit : Nat) (kind : Kind) : Option SetEntry :=
  s.units[unit]?.bind (·.find? kind)

/-- The attribute of a key. -/
def attribute? (s : StateSet) (key : AttributeKey) : Option (Attribute × Mode) :=
  (s.entryAt? key).map fun e => (e.value, e.mode)

/-- The attribute of a kind in a texture unit. -/
def unitAttribute? (s : StateSet) (unit : Nat) (kind : Kind) : Option (Attribute × Mode) :=
  (s.unitEntryAt? unit kind).map fun e => (e.value, e.mode)

/-- The uniform of a name. -/
def uniform? (s : StateSet) (name : String) : Option (UniformValue × Mode) := s.uniforms.find? name

/-- Nothing is set. -/
def isEmpty (s : StateSet) : Bool :=
  s.attributes.isEmpty && s.units.all (·.isEmpty) && s.uniforms.isEmpty && s.material.isNone

end StateSet

/-- A state set that is shared, with its identity. -/
structure SharedSet where
  identity : Nat
  content : StateSet
deriving Inhabited

namespace SharedSet

/-- The shared set that an attribute of a set was made for. -/
def sourceOf (s : SharedSet) (e : SetEntry) : Nat := e.source.getD s.identity

/-- An entry as it is in a copy of its set. -/
def copyEntry (s : SharedSet) (e : SetEntry) : SetEntry := { e with source := some (s.sourceOf e) }

/-- A copy of a shared set, which is not shared yet. To copy a set before it is shared comes to the
same as to share it and go on with two copies, and to change a shared set that nobody else holds
comes to the same as to go on with a copy. -/
def copy (s : SharedSet) : StateSet :=
  { s.content with
    attributes := s.content.attributes.mapValues fun _ => s.copyEntry
    units := s.content.units.map (·.mapValues fun _ => s.copyEntry) }

end SharedSet

end SceneShading
