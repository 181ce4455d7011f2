import SceneShading.Program.Generator
import SceneShading.State.Stack
import SceneShading.State.Tree

/-!
# Pipeline states

A pipeline state is what the pushed state sets amount to: a slot with an override stack for every
attribute, for every kind of attribute in every texture unit, and for every uniform. A slot appears
with the first set that touches it, and keeps a default for the time when its stack is empty: the
fallback of the first attribute, the first value of a uniform.

Applying a state tells the device what changed: the values of slots that it does not have yet, the
program if another one is bound, and all uniforms. What the device is told is a list of events.
-/

namespace SceneShading

/-- An entry of a set as it is held on a stack. -/
def SharedSet.hold (set : SharedSet) (e : SetEntry) : HeldAttribute × Mode :=
  (⟨.set (set.sourceOf e), e.value⟩, e.mode)

/-- What a graphics device is told. -/
inductive Event where
  /-- A value of an attribute slot; texture attributes come with their unit. -/
  | attribute (held : HeldAttribute) (unit : Option Nat)
  | program (program : Program)
  | uniform (name : String) (value : UniformValue)
  | draw (leaf : RenderLeaf)
deriving Inhabited

/-- The state of the pipeline. -/
structure PipelineState where
  /-- The pushed state sets, innermost first. -/
  sets : List SharedSet := []
  attributes : Table AttributeKey AttributeSlot := {}
  units : List (Table Kind AttributeSlot) := []
  uniforms : Table String UniformSlot := {}
  /-- The program that is bound. -/
  program : Option Program := none
  /-- The number of defaults given out so far. -/
  defaults : Nat := 0
deriving Inhabited

namespace PipelineState

/-- The switch of vertex colors, which is off unless a set switches it on. -/
def vertexColorSwitch : UniformSlot := { fallback := .float .zero }

/-- The state before anything is pushed. -/
def initial : PipelineState :=
  { uniforms := Table.empty.insert "uArrayColorEnabled" vertexColorSwitch }

/-! ## Defaults -/

/-- A default with a number of its own. -/
def newDefault (s : PipelineState) (a : Attribute) : HeldAttribute × PipelineState :=
  (⟨.fallback s.defaults, a⟩, { s with defaults := s.defaults + 1 })

/-- Slots where a key has a default, which counts as a change. -/
def setDefault {κ : Type} [DecidableEq κ] (slots : Table κ AttributeSlot) (key : κ)
    (held : HeldAttribute) : Table κ AttributeSlot :=
  slots.upsert key { fallback := held } fun s =>
    { s with fallback := held, stack := s.stack.mark true }

/-- The state with a default for the kind of an attribute in a texture unit. -/
def setUnitDefault (s : PipelineState) (unit : Nat) (a : Attribute) : PipelineState :=
  let (held, s) := s.newDefault a
  { s with units := (growTables s.units (unit + 1)).modify unit (setDefault · a.kind held) }

/-- The state with a default for the key of an attribute; texture attributes go to the first
unit. -/
def setAttributeDefault (s : PipelineState) (a : Attribute) : PipelineState :=
  if a.kind.isTextureKind then s.setUnitDefault 0 a
  else
    let (held, s) := s.newDefault a
    { s with attributes := setDefault s.attributes a.key held }

/-- The state with a default for a uniform. -/
def setUniformDefault (s : PipelineState) (name : String) (value : UniformValue) : PipelineState :=
  { s with
    uniforms := s.uniforms.upsert name { fallback := value } fun u => { u with fallback := value } }

/-- The default of a key. -/
def attributeDefault? (s : PipelineState) (key : AttributeKey) : Option Attribute :=
  (s.attributes.find? key).map (·.fallback.value)

/-- The default of a uniform. -/
def uniformDefault? (s : PipelineState) (name : String) : Option UniformValue :=
  (s.uniforms.find? name).map (·.fallback)

/-! ## Pushing and popping -/

/-- A slot for an attribute that no set touched before. -/
def newSlot (serial : Nat) (a : Attribute) : AttributeSlot :=
  { fallback := ⟨.fallback serial, a.fallback⟩ }

/-- Slots where the attributes of a set are pushed, and the number of defaults given out. -/
def pushAttributes {κ : Type} [DecidableEq κ] (set : SharedSet) (entries : Table κ SetEntry)
    (slots : Table κ AttributeSlot) (defaults : Nat) : Table κ AttributeSlot × Nat :=
  entries.entries.foldl (fun (slots, defaults) (key, e) =>
    (slots.upsert key (newSlot defaults e.value) fun s =>
      { s with stack := s.stack.push (set.hold e) }, defaults + 1))
    (slots, defaults)

/-- Texture units where the attributes of a set are pushed, unit after unit. -/
def pushUnits (set : SharedSet) : List (Table Kind SetEntry) → List (Table Kind AttributeSlot) →
    Nat → List (Table Kind AttributeSlot) × Nat
  | entries :: tables, slots :: units, defaults =>
    let (slots, defaults) := pushAttributes set entries slots defaults
    let (units, defaults) := pushUnits set tables units defaults
    (slots :: units, defaults)
  | _, units, defaults => (units, defaults)

/-- Slots where the uniforms of a set are pushed. -/
def pushUniforms (set : Table String (UniformValue × Mode)) (slots : Table String UniformSlot) :
    Table String UniformSlot :=
  set.entries.foldl (fun slots (name, value, mode) =>
    slots.upsert name { fallback := value } fun u =>
      { u with stack := u.stack.push (value, mode) }) slots

/-- The state with a set pushed. -/
def push (s : PipelineState) (set : SharedSet) : PipelineState :=
  let content := set.content
  let (attributes, defaults) :=
    pushAttributes set content.attributes s.attributes s.defaults
  let (units, defaults) :=
    pushUnits set content.units (growTables s.units content.units.length) defaults
  { s with
    sets := set :: s.sets
    attributes, units, defaults
    uniforms := pushUniforms content.uniforms s.uniforms }

/-- Slots where the attributes of a set are popped. -/
def popAttributes {κ α : Type} [DecidableEq κ] (set : Table κ α) (slots : Table κ AttributeSlot) :
    Table κ AttributeSlot :=
  set.keys.foldl (fun slots key => slots.modify key fun s => { s with stack := s.stack.pop }) slots

/-- Texture units where the attributes of a set are popped. -/
def popUnits {α : Type} : List (Table Kind α) → List (Table Kind AttributeSlot) →
    List (Table Kind AttributeSlot)
  | set :: sets, slots :: units => popAttributes set slots :: popUnits sets units
  | _, units => units

/-- Slots where the uniforms of a set are popped. -/
def popUniforms {α : Type} (set : Table String α) (slots : Table String UniformSlot) :
    Table String UniformSlot :=
  set.keys.foldl (fun slots name => slots.modify name fun u => { u with stack := u.stack.pop }) slots

/-- The state with its innermost set popped, which the caller names. -/
def pop (s : PipelineState) (set : SharedSet) : PipelineState :=
  let content := set.content
  { s with
    sets := s.sets.tail
    attributes := popAttributes content.attributes s.attributes
    units := popUnits content.units s.units
    uniforms := popUniforms content.uniforms s.uniforms }

/-- The state after a step between chains of state sets. -/
def step (s : PipelineState) : Transition → PipelineState
  | .push set => s.push set
  | .pop set => s.pop set

/-- The state after several steps. -/
def run (s : PipelineState) (steps : List Transition) : PipelineState := steps.foldl step s

/-! ## Reading -/

/-- The active attribute of a key. -/
def attribute? (s : PipelineState) (key : AttributeKey) : Option Attribute :=
  ((s.attributes.find? key).bind (·.active?)).map (·.value)

/-- The active attribute of a kind in a texture unit. -/
def unitAttribute? (s : PipelineState) (unit : Nat) (kind : Kind) : Option Attribute :=
  ((s.units[unit]?.bind (·.find? kind)).bind (·.active?)).map (·.value)

/-- The active values of slots, in an order of their keys. -/
def activeValues {κ : Type} (before : κ → κ → Bool) (slots : Table κ AttributeSlot) :
    List Attribute :=
  let active := slots.entries.filterMap fun e => e.2.active?.map (e.1, ·.value)
  (active.mergeSort fun a b => !before b.1 a.1).map (·.2)

/-- The active attributes, in the order of their keys. -/
def activeAttributes (s : PipelineState) : List Attribute :=
  activeValues AttributeKey.lt s.attributes

/-- The active attributes of the texture units, each unit in the order of kinds. -/
def activeUnits (s : PipelineState) : List (List Attribute) :=
  s.units.map (activeValues fun a b => decide (a.rank < b.rank))

/-- The innermost described material. -/
def material? (s : PipelineState) : Option Description := s.sets.findSome? (·.content.material)

/-- The innermost value that a set gives a uniform, with its mode. -/
def uniform? (s : PipelineState) (name : String) : Option (UniformValue × Mode) :=
  (s.uniforms.find? name).bind (·.stack.top?)

/-- The value that is uploaded for a uniform. -/
def uniformValue? (s : PipelineState) (name : String) : Option UniformValue :=
  (s.uniforms.find? name).map (·.effective)

/-- What the program of the state is generated from. -/
def request (s : PipelineState) : ProgramRequest :=
  { attributes := s.activeAttributes, units := s.activeUnits, description := s.material? }

/-! ## Applying -/

/-- The events of slots whose values are pending. -/
def slotEvents {κ : Type} (unit : Option Nat) (slots : Table κ AttributeSlot) : List Event :=
  slots.entries.filterMap fun e => e.2.pending?.map (.attribute · unit)

/-- The events of all slots whose values are pending. -/
def attributeEvents (s : PipelineState) : List Event :=
  slotEvents none s.attributes ++
    s.units.zipIdx.flatMap fun u => slotEvents (some u.2) u.1

/-- Slots whose pending values were given to the device. -/
def settle {κ : Type} (slots : Table κ AttributeSlot) : Table κ AttributeSlot :=
  slots.mapValues fun _ s => s.settled

/-- The state whose pending values were given to the device. -/
def settled (s : PipelineState) : PipelineState :=
  { s with attributes := settle s.attributes, units := s.units.map settle }

/-- The program is bound. -/
def isBound (s : PipelineState) (p : Program) : Bool := s.program.any (·.isSame p)

/-- The event of binding a program, unless it is bound. -/
def programEvents (s : PipelineState) (p : Program) : List Event :=
  if s.isBound p then [] else [.program p]

/-- The uploads of the uniforms of attributes in a unit. -/
def attributeUploads (unit : Nat) (attributes : List Attribute) : List Event :=
  attributes.flatMap fun a => (a.uniformValues unit).map fun u => .uniform u.1 u.2

/-- The uploads of all uniforms: those of active attributes, then those of the stacks. -/
def uniformEvents (s : PipelineState) : List Event :=
  attributeUploads 0 s.activeAttributes ++
    s.activeUnits.zipIdx.flatMap (fun u => attributeUploads u.2 u.1) ++
    s.uniforms.entries.map fun e => .uniform e.1 e.2.effective

/-- A state that was applied, what the device was told, and the generator with its program. -/
structure Application where
  state : PipelineState
  generator : Generator
  events : List Event

/-- The state applied: attributes, program, uniforms. -/
def apply (s : PipelineState) (generator : Generator) : Except Fault Application := do
  let (program, generator) ← generator.programFor s.request
  return {
    state := { s.settled with program := if s.isBound program then s.program else some program }
    generator
    events := s.attributeEvents ++ s.programEvents program ++ s.uniformEvents }

end PipelineState

end SceneShading
