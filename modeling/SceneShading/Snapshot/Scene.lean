import SceneShading.Description.Json
import SceneShading.Snapshot.Graph
import SceneShading.State.RenderBin

/-!
# Snapshots of state sets, pipeline states and events

What is kept in tables is shown in the order of its keys. The events of slots that do not depend on
each other are shown in an order of their own: within a run of attribute events by unit, kind and
member, and within a run of uniform events by name, where uploads of one name keep their order.
-/

namespace SceneShading

/-- A list put into an order given by a strict comparison of keys; equal keys keep their order. -/
def sortByKey {α κ : Type} (key : α → κ) (before : κ → κ → Bool) (xs : List α) : List α :=
  xs.mergeSort fun a b => !before (key b) (key a)

namespace Kind

/-- The order of kinds. -/
def before (a b : Kind) : Bool := decide (a.rank < b.rank)

end Kind

/-- The flags of a mode, as a number. -/
def Mode.snapshot (m : Mode) : Json := .ofNat m.toBits

namespace StateSet

/-- The attributes of a set: kind, member and mode. -/
def attributeSnapshots (s : StateSet) : Json :=
  .array <| (sortByKey (·.1) AttributeKey.lt s.attributes.entries).map fun (k, e) =>
    .array [.ofString k.kind.name, .ofNat k.member, e.mode.snapshot]

/-- The attributes of a texture unit: kind and mode. -/
def unitSnapshot (unit : Table Kind SetEntry) : Json :=
  .array <| (sortByKey (·.1) Kind.before unit.entries).map fun (k, e) =>
    .array [.ofString k.name, e.mode.snapshot]

/-- The uniforms of a set: name, value and mode. -/
def uniformSnapshots (s : StateSet) : Json :=
  .array <| (sortByKey (·.1) (fun a b => decide (a < b)) s.uniforms.entries).map
    fun (name, value, mode) => .array [.ofString name, value.snapshot, mode.snapshot]

/-- What a set holds. -/
def members (s : StateSet) : List (String × Json) :=
  [("name", .ofOption .ofString s.name), ("empty", .bool s.isEmpty),
   ("attributes", s.attributeSnapshots), ("units", .array (s.units.map unitSnapshot)),
   ("uniforms", s.uniformSnapshots),
   ("shader_graph", .ofOption (fun d => .ofNat d.nodes.length) s.material)]

end StateSet

/-! ## Reading sets -/

/-- A set that is being read, the bone limits that have seen its skins, and whether the attributes to
be removed were there. -/
structure SetDraft where
  set : StateSet
  limits : BoneLimits
  removed : List Bool := []

namespace SetDraft

/-- The mode of an item; values are switched on by default. -/
def modeOf (j : Json) : Mode := (j.natMember? "mode").elim .on Mode.ofBits

/-- The draft after an item: an attribute, a uniform, a described material, or an attribute to be
removed. A broken description refuses the set, but the limits stay. -/
def add (d : SetDraft) (j : Json) : Except (DescriptionError × BoneLimits) SetDraft :=
  match j.member? "attr", j.textMember? "uniform", j.textMember? "description" with
  | some a, _, _ =>
    let (a, limits) := Attribute.ofSnapshot a d.limits
    let set := (j.natMember? "unit").elim (d.set.setAttribute a (modeOf j))
      fun unit => d.set.setUnitAttribute unit a (modeOf j)
    .ok { d with set, limits }
  | none, some name, _ =>
    .ok { d with set := d.set.setUniform name (.ofSnapshot (j.member "value")) (modeOf j) }
  | none, none, some text =>
    match Description.parse text with
    | .ok material => .ok { d with set := { d.set with material := some material } }
    | .error e => .error (e, d.limits)
  | none, none, none =>
    let key := AttributeKey.ofSnapshot (j.member "remove")
    .ok { d with
      set := d.set.removeAttribute key
      removed := d.removed ++ [(d.set.attribute? key).isSome] }

end SetDraft

/-! ## Writing -/

namespace PipelineState

/-- The active keys of a pipeline state. -/
def activeMembers (s : PipelineState) : List (String × Json) :=
  let keys (attributes : List Attribute) : Json := .array (attributes.map (·.key.snapshot))
  [("active", keys s.activeAttributes), ("units", .array (s.activeUnits.map keys))]

end PipelineState

/-- A drawable with its bounds. -/
def RenderLeaf.snapshot (l : RenderLeaf) : Json :=
  .ofMembers [("drawable", .ofNat l.drawable), ("bounds", l.bounds.snapshot),
    ("model", l.model.snapshot), ("distance_sq", l.distanceSq.snapshot)]

namespace Event

/-- The runs in which the order of events is free: attributes, and uniforms. -/
def run : Event → Nat
  | .attribute .. => 0
  | .uniform .. => 1
  | .program _ => 2
  | .draw _ => 3

/-- The order of events within a run. -/
def before : Event → Event → Bool
  | .attribute a u, .attribute b v =>
    let place (unit : Option Nat) : Nat := unit.elim 0 (· + 1)
    decide (place u < place v) || place u == place v && a.value.key.lt b.value.key
  | .uniform a _, .uniform b _ => decide (a < b)
  | _, _ => false

/-- Events with their runs in order. -/
def sorted (events : List Event) : List Event :=
  (events.splitBy fun a b => a.run == b.run).flatMap (sortByKey id before)

end Event

namespace CompiledProgram

/-- The stages of a program. -/
def members (p : CompiledProgram) (source hash : Bool) : List (String × Json) :=
  [("vertex", p.vertex.snapshot source hash), ("fragment", p.fragment.snapshot source hash)]

end CompiledProgram

namespace Transition

/-- A step with the name of its set. -/
def snapshot (name? : Nat → Option String) (step : Transition) : Json :=
  .array [.ofString (if step.isPush then "push" else "pop"),
    .ofOption .ofString (name? step.set.identity)]

end Transition

/-- The nodes, variables and varyings of a graph in brief. -/
def Graph.brief (g : Graph) : Json :=
  .ofMembers [("types", .ofStrings (g.nodes.toList.map Node.typeName)),
    ("variables", .ofStrings (g.registered.filterMap fun n =>
      n.kind.declared?.map fun v => v.type ++ " " ++ v.name)),
    ("varyings", .ofStrings (g.varyings.map (·.1)))]

/-- The roles that attributes play. -/
def Roles.snapshot (r : Roles) : Json :=
  .ofMembers [("program", .ofString r.programName),
    ("material", .ofOption (·.shininess.snapshot) r.material),
    ("lights", .array (r.lights.map fun l => .ofNat l.number)),
    ("shadow_receives", .array (r.receivers.map fun s => .ofNat s.light)),
    ("shadow_cast", .bool r.cast.isSome),
    ("skinning", .ofOption (fun s => .array [.bool s.enabled, .ofOption .ofNat s.size]) r.skinning),
    ("morph", .ofOption (fun m => .array [.bool m.enabled, .ofNat m.targetCount]) r.morph),
    ("billboard", .bool r.isBillboard),
    ("textures", .array (r.textures.map fun t =>
      .array [.ofNat t.1, .ofOption .ofString t.2.name])),
    ("shadow_textures", .array (r.shadowMaps.map fun t =>
      .array [.ofNat t.1, .ofNat t.2.light])),
    ("shadow_of", .array (r.lights.map fun l => .ofOption (fun (s, units) =>
      .array [.ofNat s.light, .array (units.map .ofNat)]) (r.shadowOf l)))]

end SceneShading
