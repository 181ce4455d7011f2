import SceneShading.Node.Basic

/-!
# Registries of variables

A registry maps the names of variables to their nodes, and keeps the names in the order in which
they were first registered. Registering a name again moves it to another node but not to another
place in the order.
-/

namespace SceneShading

/-- Nodes of names, in the order of first registration. -/
structure Registry where
  entries : List (String × NodeId) := []
deriving Repr, DecidableEq, Inhabited

namespace Registry

/-- The node of a name. -/
def find? (r : Registry) (name : String) : Option NodeId := r.entries.lookup name

/-- The name is registered. -/
def contains (r : Registry) (name : String) : Bool := r.entries.any (·.1 == name)

/-- The number of names. -/
def size (r : Registry) : Nat := r.entries.length

/-- The names in the order of first registration. -/
def names (r : Registry) : List String := r.entries.map (·.1)

/-- The registry with a name registered for a node. -/
def register (r : Registry) (name : String) (id : NodeId) : Registry :=
  if r.contains name then ⟨r.entries.map fun e => if e.1 = name then (name, id) else e⟩
  else ⟨r.entries ++ [(name, id)]⟩

/-- A name followed by the least positive number that makes it free. -/
def freeName (r : Registry) (name : String) : String :=
  let numbers := (List.range (r.size + 1)).map (· + 1)
  name ++ toString ((numbers.find? fun n => !r.contains (name ++ toString n)).getD (r.size + 1))

/-- The name of a new local variable: a temporary name numbered by the size of the registry, or the
wanted name, with a number if it is taken. -/
def localName (r : Registry) : Option String → String
  | none => "tmp_" ++ toString r.size
  | some name => if r.contains name then r.freeName name else name

theorem mem_names_iff {r : Registry} {name : String} :
    name ∈ r.names ↔ r.contains name = true := by
  simp [names, contains]

theorem names_register (r : Registry) (name : String) (id : NodeId) :
    (r.register name id).names = if r.contains name then r.names else r.names ++ [name] := by
  unfold register
  split
  · simp only [names, List.map_map]
    apply List.map_congr_left
    intro e _
    by_cases h : e.1 = name <;> simp [h]
  · simp [names]

theorem names_register_nodup {r : Registry} (h : r.names.Nodup) (name : String) (id : NodeId) :
    (r.register name id).names.Nodup := by
  rw [names_register]
  split
  · exact h
  · rename_i hc
    refine List.nodup_append.2 ⟨h, by simp, ?_⟩
    intro a ha b hb
    simp only [List.mem_singleton] at hb
    rintro rfl
    exact hc (hb ▸ mem_names_iff.1 ha)

end Registry

end SceneShading
