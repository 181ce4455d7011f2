import SceneShading.Program.Compile

/-!
# Generated programs

A generator compiles programs on demand and keeps them. Attributes that the settings refuse, or that
are switched off, take no part. A surface that is drawn into a shadow map is narrowed to what its
depth pass reads, so that all surfaces with the same deformation share one pass.

A program is kept under a key, which the structures of the attributes, those of texture units with
their units, and the description spell one after another. Parameters that only reach uniforms are not
in the key, so that surfaces which differ in nothing else share a program. A key is a numeral, and
leading zeros do not count: an attribute of the first texture unit at the head of a key counts like
the same attribute outside the texture units.
-/

namespace SceneShading

/-- What a program is generated from. -/
structure ProgramRequest where
  attributes : List Attribute := []
  units : List (List Attribute) := []
  description : Option Description := none

namespace ProgramRequest

/-- The attributes that take part in generation. -/
def accepted (settings : Settings) (attributes : List Attribute) : List Attribute :=
  attributes.filter fun a => settings.accepts a.kind && a.isEnabled

/-- A surface is drawn into a shadow map. -/
def castsShadow (r : ProgramRequest) : Bool := r.attributes.any (·.kind == .shadowCast)

/-- The request narrowed to what a depth pass reads. -/
def narrowed (r : ProgramRequest) : ProgramRequest :=
  if r.castsShadow then { attributes := r.attributes.filter (·.kind.castsShadow) } else r

/-- The part of a request that matters under settings. -/
def effective (settings : Settings) (r : ProgramRequest) : ProgramRequest :=
  narrowed { r with
    attributes := accepted settings r.attributes
    units := r.units.map (accepted settings) }

/-- The roles that the attributes of a request play. -/
def roles (r : ProgramRequest) : Roles := .ofAttributes r.attributes r.units

end ProgramRequest

/-- A part of a request that matters to its program. -/
inductive KeyPart where
  | attribute (s : AttributeStructure)
  | unitAttribute (unit : Nat) (s : AttributeStructure)
  | description (d : Description)
deriving Repr, DecidableEq, Inhabited

/-- A digit of a key. -/
inductive KeyDigit where
  | number (n : Nat)
  | shape (s : AttributeStructure)
  | description (d : Description)
deriving Repr, DecidableEq, Inhabited

namespace KeyDigit

/-- The digit of a structure. Face culling has the least structure of all, and no program depends on
it: its digit is zero. -/
def ofStructure (s : AttributeStructure) : KeyDigit :=
  if s.key = ⟨.cullFace, 0⟩ then number 0 else shape s

end KeyDigit

/-- The digits of a part; a part that belongs to a texture unit has the number of the unit first. -/
def KeyPart.digits : KeyPart → List KeyDigit
  | .attribute s => [.ofStructure s]
  | .unitAttribute unit s => [.number unit, .ofStructure s]
  | .description d => [.description d]

/-- What a program is kept under: a numeral, whose leading zeros do not count. -/
structure ProgramKey where
  digits : List KeyDigit
deriving Repr, DecidableEq, Inhabited

namespace ProgramKey

/-- The key that parts spell one after another. -/
def ofParts (parts : List KeyPart) : ProgramKey :=
  ⟨(parts.flatMap KeyPart.digits).dropWhile (· == .number 0)⟩

end ProgramKey

namespace ProgramRequest

/-- The structures of attributes in texture units, with the units. -/
def unitParts (limits : BoneLimits) (units : List (List Attribute)) : List KeyPart :=
  units.zipIdx.flatMap fun u => u.1.map fun a => .unitAttribute u.2 (a.structureOf limits)

/-- The parts of a request: the structures of the attributes, those of texture units with their
units, and the description. -/
def parts (limits : BoneLimits) (r : ProgramRequest) : List KeyPart :=
  (r.attributes.map fun a => .attribute (a.structureOf limits)) ++ unitParts limits r.units ++
    r.description.toList.map .description

/-- The key of a request. -/
def key (limits : BoneLimits) (r : ProgramRequest) : ProgramKey := .ofParts (r.parts limits)

end ProgramRequest

/-- A program that a generator made. Its maker and its serial number tell it apart from all other
programs: generators number their programs on their own, and one of them may make two programs for
the same key at different times. -/
structure Program where
  /-- The identity of the generator that made it. -/
  maker : Nat
  serial : Nat
  key : ProgramKey
  stages : CompiledProgram
deriving Repr, Inhabited

namespace Program

/-- No stage has an error. -/
def isValid (p : Program) : Bool := p.stages.isValid

/-- Two programs are the same one, and not only equal. -/
def isSame (p q : Program) : Bool := p.maker == q.maker && p.serial == q.serial

end Program

/-- A context, and the programs made in it. The identity tells the generator apart from others with
the same context. -/
structure Generator where
  identity : Nat := 0
  context : Context := {}
  cache : List Program := []
  made : Nat := 0

namespace Generator

/-- The generator of a context. -/
def ofContext (context : Context) : Generator := { context }

/-- The number of programs that are kept. -/
def size (g : Generator) : Nat := g.cache.length

/-- The generator without its programs. -/
def clear (g : Generator) : Generator := { g with cache := [] }

/-- The generator with another context. Its programs were made in the old one and are dropped. -/
def modifyContext (g : Generator) (f : Context → Context) : Generator :=
  { g with context := f g.context, cache := [] }

/-- The generator after a bone palette was seen. The lengths of palettes are part of keys, so that
the programs stay. -/
def withBoneLimits (g : Generator) (limits : BoneLimits) : Generator :=
  { g with context := { g.context with boneLimits := limits } }

/-- The program that is kept under a key. -/
def find? (g : Generator) (key : ProgramKey) : Option Program := g.cache.find? (·.key == key)

/-- The generator with a new program. -/
def insert (g : Generator) (key : ProgramKey) (stages : CompiledProgram) : Program × Generator :=
  let program : Program := { maker := g.identity, serial := g.made, key, stages }
  (program, { g with cache := program :: g.cache, made := g.made + 1 })

/-- The stages of a request, made without looking at the programs that are kept. -/
def compile (g : Generator) (r : ProgramRequest) : Except Fault CompiledProgram :=
  g.context.compileProgram r.roles r.description

/-- The program of a request: the one that is kept, or a new one. -/
def programFor (g : Generator) (r : ProgramRequest) : Except Fault (Program × Generator) :=
  let r := r.effective g.context.settings
  let key := r.key g.context.boneLimits
  match g.find? key with
  | some program => .ok (program, g)
  | none => (g.compile r).map (g.insert key)

end Generator

end SceneShading
