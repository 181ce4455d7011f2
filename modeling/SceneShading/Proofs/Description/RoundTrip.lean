import Mathlib.Tactic
import SceneShading.Description.Json
import SceneShading.Proofs.Json.RoundTrip

/-!
# Descriptions survive their text

A description that is written and parsed again is the same description, if it is valid
(`Description.parse_render`). A written value does not say which form of references or which kind of
argument it is; its shape in JSON does. Fields that hold nothing are not written at all, so the fields
that are found are those of a record with gaps (`Json.recordFields_ofFields`), and pins come back as
the map that they were since they are written in its order (`PinMap.ofList_entries`).
-/

namespace SceneShading

/-! ## Records -/

namespace Json

/-- The members of a record, where fields may be missing. -/
def present (fields : List (String × Option Json)) : List (String × Json) :=
  fields.flatMap fun f => (f.2.map (f.1, ·)).toList

lemma mapM_eq_some_map {α β : Type} {f : α → Option β} {g : α → β} {xs : List α}
    (h : ∀ x ∈ xs, f x = some (g x)) : xs.mapM f = some (xs.map g) := by
  induction xs with
  | nil => rfl
  | cons x xs ih =>
    rw [List.mapM_cons, h x List.mem_cons_self, ih fun y hy => h y (List.mem_cons_of_mem _ hy)]
    rfl

lemma mapM_eq_some {α : Type} {f : α → Option α} {xs : List α} (h : ∀ x ∈ xs, f x = some x) :
    xs.mapM f = some xs := by
  have hall : xs.mapM f = some (xs.map id) := mapM_eq_some_map h
  rwa [List.map_id] at hall

/-- Items are decoded as what they encode. -/
lemma mapM_encoded {α : Type} {decode : Json → Option α} {encode : α → Json} (xs : List α)
    (h : ∀ x ∈ xs, decode (encode x) = some x) : (xs.map encode).mapM decode = some xs := by
  rw [List.mapM_map]
  exact mapM_eq_some h

lemma namedMembers_ofMembers (members : List (String × Json)) :
    namedMembers (members.map fun m => (some m.1, m.2)) = some members := by
  rw [namedMembers, List.mapM_map]
  exact mapM_eq_some fun _ _ => rfl

/-- The members of a name are those of its field. -/
lemma filter_present {fields : List (String × Option Json)} (h : (fields.map (·.1)).Nodup)
    {f : String × Option Json} (hf : f ∈ fields) :
    (present fields).filter (·.1 == f.1) = (f.2.map (f.1, ·)).toList := by
  have hother : ∀ fields : List (String × Option Json), f.1 ∉ fields.map (·.1) →
      (present fields).filter (·.1 == f.1) = [] := by
    intro fields hname
    rw [List.filter_eq_nil_iff]
    intro m hm heq
    obtain ⟨f', hf', hm⟩ := List.mem_flatMap.1 hm
    obtain ⟨j, -, rfl⟩ := Option.map_eq_some_iff.1 (Option.mem_toList.1 hm)
    exact hname (beq_iff_eq.1 heq ▸ List.mem_map_of_mem hf')
  induction fields with
  | nil => cases hf
  | cons f' fields ih =>
    obtain ⟨hnew, hrest⟩ := List.nodup_cons.1 h
    rw [present, List.flatMap_cons, List.filter_append]
    rcases List.mem_cons.1 hf with rfl | hf
    · have hfirst : (f.2.map (f.1, ·)).toList.filter (·.1 == f.1) = (f.2.map (f.1, ·)).toList := by
        cases f.2 <;> simp
      rw [hfirst, ← present, hother fields hnew, List.append_nil]
    · have hne : f'.1 ≠ f.1 := by
        rintro heq
        exact hnew (List.mem_map.2 ⟨f, hf, heq.symm⟩)
      have hfirst : (f'.2.map (f'.1, ·)).toList.filter (·.1 == f.1) = [] := by
        cases f'.2 <;> simp [hne]
      rw [hfirst, List.nil_append]
      exact ih hrest hf

/-- The fields of a record are found under their names, in order. -/
lemma recordFields_present (fields : List (String × Option Json)) (h : (fields.map (·.1)).Nodup) :
    (ofMembers (present fields)).recordFields (fields.map (·.1)) = some (fields.map (·.2)) := by
  rw [ofMembers, recordFields, namedMembers_ofMembers, Option.bind_eq_bind, Option.bind_some,
    List.mapM_map]
  refine mapM_eq_some_map fun f hf => ?_
  rw [Function.comp_apply, uniqueMember, filter_present h hf]
  cases f.2 <;> rfl

end Json

/-! ## Arguments and references -/

lemma NodeArg.ofJson_toJson (arg : NodeArg) : ofJson arg.toJson = some arg := by
  cases arg with
  | bool b => rfl
  | text s => rfl
  | int i =>
    have hlower := i.le_toInt
    have hupper := i.toInt_lt
    rw [toJson, Json.ofInt, ofJson, if_pos (by constructor <;> omega), Int64.ofInt_toInt]

namespace PinMap

/-- A pin behind all others. -/
lemma setEntry_of_lt {pin reference : String} {entries : List (String × String)}
    (h : ∀ e ∈ entries, e.1 < pin) :
    setEntry pin reference entries = entries ++ [(pin, reference)] := by
  induction entries with
  | nil => rfl
  | cons e entries ih =>
    have he := h e List.mem_cons_self
    have hlt : ¬pin < e.1 := fun hlt => String.lt_irrefl _ (String.lt_trans hlt he)
    have hne : pin ≠ e.1 := by
      rintro rfl
      exact String.lt_irrefl _ he
    rw [setEntry, if_neg hlt, if_neg hne, ih fun e he => h e (List.mem_cons_of_mem _ he)]
    rfl

lemma eq_of_entries {m m' : PinMap} (h : m.entries = m'.entries) : m = m' := by
  obtain ⟨entries, _⟩ := m
  obtain ⟨entries', _⟩ := m'
  cases h
  rfl

/-- The map of its own entries. -/
lemma ofList_entries (m : PinMap) : ofList m.entries = m := by
  have hfold : ∀ (rest done : List (String × String)) (m : PinMap), m.entries = done →
      (done ++ rest).Pairwise (·.1 < ·.1) →
        (rest.foldl (fun m e => m.insert e.1 e.2) m).entries = done ++ rest := by
    intro rest
    induction rest with
    | nil => exact fun done m hm _ => hm.trans (List.append_nil _).symm
    | cons e rest ih =>
      intro done m hm hascending
      have hbehind : ∀ e' ∈ done, e'.1 < e.1 := fun e' he' =>
        (List.pairwise_append.1 hascending).2.2 e' he' e List.mem_cons_self
      have hinsert : (m.insert e.1 e.2).entries = done ++ [e] := by
        subst hm
        exact setEntry_of_lt hbehind
      rw [List.foldl_cons, List.append_cons]
      rw [List.append_cons] at hascending
      exact ih (done ++ [e]) _ hinsert hascending
  exact eq_of_entries (hfold m.entries [] {} rfl m.ascending)

end PinMap

lemma PinsDescription.ofJson_toJson (p : PinsDescription) : ofJson p.toJson = some p := by
  cases p with
  | single reference => rfl
  | positional references =>
    rw [toJson, Json.ofStrings, ofJson, Json.mapM_encoded references fun _ _ => rfl]
    rfl
  | named pins =>
    have hpins : (pins.entries.map fun e => (e.1, Json.ofString e.2)).mapM
        (fun m => m.2.asText.map (m.1, ·)) = some pins.entries := by
      rw [List.mapM_map]
      exact Json.mapM_eq_some fun _ _ => rfl
    rw [toJson, Json.ofMembers, ofJson, Json.namedMembers_ofMembers, Option.bind_eq_bind,
      Option.bind_some, hpins, Option.bind_eq_bind, Option.bind_some, PinMap.ofList_entries]
    rfl

/-! ## Nodes and descriptions -/

namespace NodeDescription

/-- The fields of a node, where those that hold nothing are missing. -/
def fields (n : NodeDescription) : List (String × Option Json) :=
  [("id", some (.ofString n.id)), ("type", some (.ofString n.nodeType)),
    ("args", if n.args.isEmpty then none else some (.array (n.args.map NodeArg.toJson))),
    ("inputs", n.inputs.map PinsDescription.toJson),
    ("outputs", n.outputs.map PinsDescription.toJson), ("comment", n.comment.map Json.ofString)]

lemma toJson_eq_present (n : NodeDescription) : n.toJson = .ofMembers (Json.present n.fields) := by
  obtain ⟨id, nodeType, args, inputs, outputs, comment⟩ := n
  rw [toJson]
  congr 1
  cases args <;> cases inputs <;> cases outputs <;> cases comment <;> rfl

lemma optional_toJson (p : Option PinsDescription) :
    Json.optional (Json.asNullable PinsDescription.ofJson) none (p.map PinsDescription.toJson) =
      some p := by
  cases p with
  | none => rfl
  | some p =>
    have hnotNull : Json.asNullable PinsDescription.ofJson p.toJson =
        (PinsDescription.ofJson p.toJson).map some := by
      cases p <;> rfl
    rw [Option.map_some, Json.optional, hnotNull, p.ofJson_toJson, Option.map_some]

lemma ofJson_toJson (n : NodeDescription) : ofJson n.toJson = some n := by
  have hnames : fieldNames.Nodup := by decide
  have hfields : n.toJson.recordFields fieldNames = some (n.fields.map (·.2)) := by
    rw [toJson_eq_present]
    exact Json.recordFields_present n.fields hnames
  have hargs : Json.optional (Json.asListOf NodeArg.ofJson) []
      (if n.args.isEmpty then none else some (.array (n.args.map NodeArg.toJson))) = some n.args := by
    split
    next hempty =>
      rw [List.isEmpty_iff.1 hempty]
      rfl
    next => exact Json.mapM_encoded n.args fun arg _ => arg.ofJson_toJson
  have hcomment : Json.optional (Json.asNullable Json.asText) none (n.comment.map Json.ofString) =
      some n.comment := by
    cases n.comment <;> rfl
  rw [ofJson, hfields, Option.bind_eq_bind, Option.bind_some]
  simp only [fields, List.map_cons, List.map_nil]
  rw [hargs, optional_toJson, optional_toJson, hcomment]
  rfl

end NodeDescription

namespace Description

lemma ofJson_toJson (d : Description) : ofJson d.toJson = some d := by
  have hnames : fieldNames.Nodup := by decide
  have hfields : d.toJson.recordFields fieldNames =
      some [some (.array (d.nodes.map NodeDescription.toJson)), some (.ofStrings d.roots)] :=
    Json.recordFields_present [("nodes", some (.array (d.nodes.map NodeDescription.toJson))),
      ("roots", some (.ofStrings d.roots))] hnames
  have hnodes : (d.nodes.map NodeDescription.toJson).mapM NodeDescription.ofJson = some d.nodes :=
    Json.mapM_encoded d.nodes fun n _ => n.ofJson_toJson
  have hroots : (d.roots.map Json.ofString).mapM Json.asText = some d.roots :=
    Json.mapM_encoded d.roots fun _ _ => rfl
  rw [ofJson, hfields, Option.bind_eq_bind, Option.bind_some]
  simp only [Json.required, Option.bind_some, Json.asListOf, Json.ofStrings]
  rw [hnodes, hroots]
  rfl

end Description

/-! ## Texts -/

namespace Json

lemma spelled_ofStrings (texts : List String) : (ofStrings texts).Spelled := by
  refine .array fun v hv => ?_
  obtain ⟨s, -, rfl⟩ := List.mem_map.1 hv
  exact .text s

lemma spelled_ofMembers {members : List (String × Json)} (h : ∀ m ∈ members, m.2.Spelled) :
    (ofMembers members).Spelled := by
  refine .object (fun m hm => ?_) fun m hm => ?_
  · obtain ⟨m, -, rfl⟩ := List.mem_map.1 hm
    rfl
  · obtain ⟨m, hmem, rfl⟩ := List.mem_map.1 hm
    exact h m hmem

lemma spelled_present {fields : List (String × Option Json)}
    (h : ∀ f ∈ fields, ∀ j ∈ f.2, j.Spelled) : (ofMembers (present fields)).Spelled := by
  refine spelled_ofMembers fun m hm => ?_
  obtain ⟨f, hf, hm⟩ := List.mem_flatMap.1 hm
  obtain ⟨j, hj, rfl⟩ := Option.map_eq_some_iff.1 (Option.mem_toList.1 hm)
  exact h f hf j hj

end Json

lemma NodeArg.spelled_toJson (arg : NodeArg) : arg.toJson.Spelled := by
  cases arg with
  | bool b => exact .bool b
  | int i => exact .integer i.toInt
  | text s => exact .text s

lemma PinsDescription.spelled_toJson (p : PinsDescription) : p.toJson.Spelled := by
  cases p with
  | single reference => exact .text reference
  | positional references => exact Json.spelled_ofStrings references
  | named pins =>
    refine Json.spelled_ofMembers fun m hm => ?_
    obtain ⟨e, -, rfl⟩ := List.mem_map.1 hm
    exact .text e.2

lemma NodeDescription.spelled_toJson (n : NodeDescription) : n.toJson.Spelled := by
  have hargs : ∀ j ∈ (if n.args.isEmpty then none else some (.array (n.args.map NodeArg.toJson)) :
      Option Json), j.Spelled := by
    intro j hj
    split at hj
    next => cases hj
    next =>
      cases hj
      refine .array fun v hv => ?_
      obtain ⟨arg, -, rfl⟩ := List.mem_map.1 hv
      exact arg.spelled_toJson
  have hpins : ∀ (p : Option PinsDescription), ∀ j ∈ p.map PinsDescription.toJson, j.Spelled := by
    intro p j hj
    obtain ⟨p, -, rfl⟩ := Option.map_eq_some_iff.1 hj
    exact p.spelled_toJson
  have hcomment : ∀ j ∈ n.comment.map Json.ofString, j.Spelled := by
    intro j hj
    obtain ⟨s, -, rfl⟩ := Option.map_eq_some_iff.1 hj
    exact .text s
  have htext : ∀ s : String, ∀ j ∈ some (Json.ofString s), j.Spelled := by
    rintro s j ⟨⟩
    exact .text s
  rw [toJson_eq_present]
  refine Json.spelled_present ?_
  simp only [fields, List.forall_mem_cons]
  exact ⟨htext n.id, htext n.nodeType, hargs, hpins n.inputs, hpins n.outputs, hcomment,
    List.forall_mem_nil _⟩

namespace Description

lemma spelled_toJson (d : Description) : d.toJson.Spelled := by
  refine Json.spelled_ofMembers fun m hm => ?_
  rcases List.mem_cons.1 hm with rfl | hm
  · refine .array fun v hv => ?_
    obtain ⟨n, -, rfl⟩ := List.mem_map.1 hv
    exact n.spelled_toJson
  · rw [List.mem_singleton.1 hm]
    exact Json.spelled_ofStrings d.roots

/-- A description is read as what it was, valid or not. -/
lemma read?_render (d : Description) : read? d.render = some d := by
  rw [read?, render, d.spelled_toJson.parse_pretty, Option.bind_some, ofJson_toJson]

/-- **Valid descriptions survive their text.** Every valid description is parsed as itself after it
was written. -/
theorem parse_render (d : Description) (h : d.validate = .ok ()) : parse d.render = .ok d := by
  rw [parse, read?_render]
  simp only
  rw [h]

/-- Two ports in order. -/
lemma pairwise_ports {first second : String} :
    [("a", first), ("b", second)].Pairwise fun x y => x.1 < y.1 := by
  have hlt : "a" < "b" := by decide
  exact List.pairwise_pair.2 hlt

/-- Every form of references and every kind of argument, in strings of all sorts. -/
def oddlySpelled : Description where
  nodes := [
    { id := "\"größe\"\t\\\x00", nodeType := "Uniform",
      args := [.text "float", .text "\n𝔲\x1f", .int (-9223372036854775808), .bool false],
      inputs := some (.single "=1.0 /* \x7f */"), comment := some "" },
    { id := "", nodeType := "Add", inputs := some (.positional []), outputs := some (.named default) },
    { id := "=", nodeType := "Mult",
      inputs := some (.named ⟨[("a", "\"größe\"\t\\\x00"), ("b", "=2")], pairwise_ports⟩),
      outputs := some (.positional ["", "="]), comment := some "\u2028 null" }]
  roots := ["=", ""]

theorem parse_render_oddlySpelled :
    oddlySpelled.validate = .ok () ∧ parse oddlySpelled.render = .ok oddlySpelled := by
  have hvalid : oddlySpelled.validate = .ok () := by decide +kernel
  exact ⟨hvalid, parse_render oddlySpelled hvalid⟩

end Description

end SceneShading
