/-!
# Inheritance modes

How a value takes part in inheritance along the state stack: whether it is switched on, whether it
overrides the values below it, and whether it is protected from a value above that overrides.
-/

namespace SceneShading

/-- A set of inheritance flags. -/
structure Mode where
  isOn : Bool
  overrides : Bool
  isProtected : Bool
deriving Repr, DecidableEq, Inhabited

namespace Mode

/-- The empty set: the value is switched off. -/
def off : Mode := ⟨false, false, false⟩

/-- Switched on, and nothing else. -/
def on : Mode := ⟨true, false, false⟩

/-- No flag is set. -/
def isEmpty (m : Mode) : Bool := !m.isOn && !m.overrides && !m.isProtected

/-- The flags of a number: `1` for on, `2` for overriding, `4` for protected. -/
def ofBits (n : Nat) : Mode := ⟨n.testBit 0, n.testBit 1, n.testBit 2⟩

/-- The number of a set of flags. -/
def toBits (m : Mode) : Nat := m.isOn.toNat + 2 * m.overrides.toNat + 4 * m.isProtected.toNat

theorem ofBits_toBits (m : Mode) : ofBits m.toBits = m := by
  obtain ⟨a, b, c⟩ := m
  cases a <;> cases b <;> cases c <;> rfl

end Mode

end SceneShading
