import SceneShading.Attribute.Basic
import SceneShading.Attribute.Mode

/-!
# Override stacks

Every value that state sets can set has a stack with an entry for each set that sets it. A pushed
value takes the top of the stack, except under a value that overrides: there the overriding value is
repeated, unless the pushed one is protected. Every push is undone by one pop.
-/

namespace SceneShading

/-- The values of one slot, innermost first, and whether it changed since it was last looked at. -/
structure ModeStack (α : Type) where
  entries : List (α × Mode) := []
  isChanged : Bool := false
deriving Repr, Inhabited

namespace ModeStack

variable {α : Type}

/-- The entry that a pushed value becomes. -/
def prevailing (entries : List (α × Mode)) (pushed : α × Mode) : α × Mode :=
  match entries.head? with
  | some top => if top.2.overrides && !pushed.2.isProtected then top else pushed
  | none => pushed

/-- The stack with a value pushed. -/
def push (s : ModeStack α) (pushed : α × Mode) : ModeStack α :=
  ⟨prevailing s.entries pushed :: s.entries, true⟩

/-- The stack with its top popped. -/
def pop (s : ModeStack α) : ModeStack α := ⟨s.entries.tail, true⟩

/-- The innermost entry. -/
def top? (s : ModeStack α) : Option (α × Mode) := s.entries.head?

/-- The stack marked as changed or not. -/
def mark (s : ModeStack α) (isChanged : Bool) : ModeStack α := { s with isChanged }

end ModeStack

/-- Where the value of an attribute slot comes from. Two values of a slot are the same value if they
have the same origin. -/
inductive Origin where
  /-- It was made for a shared state set, and copies of the set have it as well. -/
  | set (identity : Nat)
  /-- It is the default of its slot, and the defaults of a pipeline are numbered. -/
  | fallback (serial : Nat)
deriving Repr, DecidableEq, Inhabited

/-- A value of an attribute slot with its origin. -/
structure HeldAttribute where
  origin : Origin
  value : Attribute
deriving Repr, Inhabited

/-- The stack of an attribute, the default that holds when nobody sets it, and the value that the
device was last given. -/
structure AttributeSlot where
  stack : ModeStack HeldAttribute := {}
  fallback : HeldAttribute
  applied : Option HeldAttribute := none
deriving Repr, Inhabited

namespace AttributeSlot

/-- The value on top of the stack, unless it is switched off. -/
def active? (s : AttributeSlot) : Option HeldAttribute :=
  match s.stack.top? with
  | some (held, mode) => if mode.isEmpty then none else some held
  | none => none

/-- The value that the device should have. -/
def effective (s : AttributeSlot) : HeldAttribute := s.active?.getD s.fallback

/-- The device was last given the value. -/
def isApplied (s : AttributeSlot) (held : HeldAttribute) : Bool :=
  s.applied.any (·.origin == held.origin)

/-- What the device has to be given: the value of a slot that changed, unless it has it. -/
def pending? (s : AttributeSlot) : Option HeldAttribute :=
  if s.stack.isChanged && !s.isApplied s.effective then some s.effective else none

/-- The slot after the device was given what was pending. -/
def settled (s : AttributeSlot) : AttributeSlot :=
  { s with stack := s.stack.mark false, applied := s.pending?.or s.applied }

end AttributeSlot

/-- The stack of a uniform, and the value that holds when nobody sets it. -/
structure UniformSlot where
  stack : ModeStack UniformValue := {}
  fallback : UniformValue
deriving Repr, Inhabited

namespace UniformSlot

/-- The value that is uploaded. -/
def effective (s : UniformSlot) : UniformValue := (s.stack.top?.map (·.1)).getD s.fallback

end UniformSlot

end SceneShading
