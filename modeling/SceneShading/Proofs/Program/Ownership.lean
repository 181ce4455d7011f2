import Mathlib.Data.List.TakeWhile
import Mathlib.Tactic
import SceneShading.Proofs.Program.Cache
import SceneShading.Proofs.Program.Contents

/-!
# Whose uniforms a program reads

The program that answers a request was made for the request, or for another one with the same key. Two
requests with the same key need not be the same, since leading zeros do not count and face culling has
the digit of the first texture unit. But the uniforms of a program belong to attributes
(`Roles.Reads`), and whatever request a program was made for, the attributes that it reads are also
there in every request with its key, as long as textures and shadow maps are in texture units
(`ProgramRequest.exists_has_of_key_eq`): a structure in a key is the digit of an attribute, and the
number in front of the structure of a texture is its unit (`KeyPart.unitAttribute_mem_of_ofParts_eq`).

The structure of an attribute decides which uniforms the attribute has
(`Attribute.signatures_bare`), so that what the program reads, the attributes of the request have.
-/

namespace SceneShading

/-! ## Attributes with the same structure -/

namespace Attribute

variable {a : Attribute}

/-- The switch of an attribute can be read off its structure. -/
lemma isEnabled_bare (limits : BoneLimits) (a : Attribute) :
    (a.bare limits).isEnabled = a.isEnabled := by
  cases a <;> rfl

/-- The signatures of an attribute can be read off its structure. -/
lemma signatures_bare (limits : BoneLimits) (a : Attribute) (unit : Nat) :
    (a.bare limits).signatures unit = a.signatures unit := by
  cases a with
  | light l =>
    have hnone : ∀ l : Light, l.enabled = false → (light l).signatures unit = [] := by
      intro l hdisabled
      rw [signatures, uniformValues, Light.uniformValues, hdisabled]
      rfl
    have hbare : (light l).bare limits = light l.bare := rfl
    rw [hbare]
    cases henabled : l.enabled with
    | false => rw [hnone l henabled, hnone l.bare henabled]
    | true =>
      rw [Light.signatures_eq henabled, Light.signatures_eq (l := l.bare) henabled]
      rfl
  | skinning s =>
    obtain ⟨enabled⟩ := s
    cases enabled <;> rfl
  | morph m =>
    obtain ⟨enabled⟩ := m
    cases enabled <;> rfl
  | shadowReceive r =>
    obtain ⟨light, enabled⟩ := r
    cases enabled <;> rfl
  | _ => rfl

/-- The unit matters to texture attributes only. -/
lemma signatures_of_not_texture (h : a.kind.isTextureKind = false) (unit : Nat) :
    a.signatures unit = a.signatures 0 := by
  cases a with
  | texture t => cases h
  | shadowTexture t => cases h
  | _ => rfl

/-- Attributes with the same structure are enabled alike and have the same signatures. -/
lemma agree_of_structureOf_eq {limits limits' : BoneLimits} {a' : Attribute}
    (h : a.structureOf limits = a'.structureOf limits') :
    a.isEnabled = a'.isEnabled ∧ ∀ unit, a.signatures unit = a'.signatures unit := by
  have hbare : a.bare limits = a'.bare limits' := congrArg AttributeStructure.attribute h
  constructor
  · rw [← isEnabled_bare limits, hbare, isEnabled_bare]
  · intro unit
    rw [← signatures_bare limits, hbare, signatures_bare]

end Attribute

/-! ## Attributes that play roles -/

namespace Roles

variable {roles : Roles} {a x : Attribute} {unit : Nat} {attributes : List Attribute}
  {units : List (List Attribute)}

/-- What plays a role after an attribute was added played one before, or it is this attribute. -/
lemma Plays.of_add (h : (roles.add a).Plays unit x) : roles.Plays unit x ∨ x = a := by
  have hmaterial : ∀ m, (roles.add a).material = some m →
      roles.material = some m ∨ .material m = a := by
    cases a <;> grind [add]
  have hlight : ∀ l, l ∈ (roles.add a).lights → l ∈ roles.lights ∨ .light l = a := by
    cases a <;> grind [add]
  have hreceiver : ∀ r, r ∈ (roles.add a).receivers →
      r ∈ roles.receivers ∨ .shadowReceive r = a := by
    cases a <;> grind [add]
  have hskinning : ∀ s, (roles.add a).skinning = some s →
      roles.skinning = some s ∨ .skinning s = a := by
    cases a <;> grind [add]
  have hmorph : ∀ m, (roles.add a).morph = some m → roles.morph = some m ∨ .morph m = a := by
    cases a <;> grind [add]
  have hunits : (roles.add a).textures = roles.textures ∧
      (roles.add a).shadowMaps = roles.shadowMaps := by
    cases a <;> grind [add]
  cases h with
  | material hm => exact (hmaterial _ hm).imp_left .material
  | light hl => exact (hlight _ hl).imp_left .light
  | receiver hr => exact (hreceiver _ hr).imp_left .receiver
  | skinning hs => exact (hskinning _ hs).imp_left .skinning
  | morph hm => exact (hmorph _ hm).imp_left .morph
  | texture he => exact .inl (.texture (hunits.1 ▸ he))
  | shadowMap he => exact .inl (.shadowMap (hunits.2 ▸ he))

/-- What plays a role after attributes were added played one before, or it is one of these. -/
lemma Plays.of_foldl (h : (attributes.foldl add roles).Plays unit x) :
    roles.Plays unit x ∨ x ∈ attributes := by
  induction attributes generalizing roles with
  | nil => exact .inl h
  | cons a attributes ih =>
    rcases ih h with hadded | hlater
    · rcases hadded.of_add with hbefore | rfl
      · exact .inl hbefore
      · exact .inr List.mem_cons_self
    · exact .inr (List.mem_cons_of_mem a hlater)

/-- Without attributes, nothing plays a role. -/
lemma not_plays_empty : ¬({} : Roles).Plays unit x := by
  rintro (_ | _ | _ | _ | _ | _ | _) <;> contradiction

/-- What plays a role in a unit is the role of an attribute there. -/
lemma exists_mem_placed {α : Type} {role? : Attribute → Option α} {e : Nat × α}
    (h : e ∈ ofUnits role? units) : ∃ a, (e.1, a) ∈ placed units ∧ role? a = some e.2 := by
  rw [ofUnits_eq_filterMap] at h
  obtain ⟨p, hp, hrole⟩ := List.mem_filterMap.1 h
  obtain ⟨role, hread, rfl⟩ := Option.map_eq_some_iff.1 hrole
  exact ⟨p.2, hp, hread⟩

/-- What plays a role is a texture attribute in its unit, or another attribute outside the units. -/
lemma Plays.of_ofAttributes (h : (ofAttributes attributes units).Plays unit x) :
    x.kind.isTextureKind = false ∧ x.kind ≠ .cullFace ∧ x ∈ attributes ∨
      x.kind.isTextureKind = true ∧ (unit, x) ∈ placed units := by
  have houtside : ∀ {x}, (attributes.foldl add {}).Plays 0 x → x ∈ attributes :=
    fun h => h.of_foldl.resolve_left not_plays_empty
  cases h with
  | material h => exact .inl ⟨rfl, nofun, houtside (.material h)⟩
  | light h => exact .inl ⟨rfl, nofun, houtside (.light h)⟩
  | receiver h => exact .inl ⟨rfl, nofun, houtside (.receiver h)⟩
  | skinning h => exact .inl ⟨rfl, nofun, houtside (.skinning h)⟩
  | morph h => exact .inl ⟨rfl, nofun, houtside (.morph h)⟩
  | texture h =>
    obtain ⟨a, ha, hrole⟩ := exists_mem_placed h
    cases a <;> cases hrole
    exact .inr ⟨rfl, ha⟩
  | shadowMap h =>
    obtain ⟨a, ha, hrole⟩ := exists_mem_placed h
    cases a <;> cases hrole
    exact .inr ⟨rfl, ha⟩

end Roles

/-! ## Digits of attributes -/

namespace KeyPart

variable {parts parts' : List KeyPart} {s t : AttributeStructure} {unit : Nat} {d : KeyDigit}
  {rest : List KeyDigit}

/-- Texture attributes are in texture units. -/
def TexturesInUnits (parts : List KeyPart) : Prop :=
  ∀ s, .attribute s ∈ parts → s.key.kind.isTextureKind = false

lemma eq_of_ofStructure_eq_shape (h : KeyDigit.ofStructure t = .shape s) : t = s := by
  rw [KeyDigit.ofStructure] at h
  split at h
  · cases h
  · exact KeyDigit.shape.inj h

/-- A structure among the digits is that of a part. -/
lemma exists_of_shape_mem (h : .shape s ∈ parts.flatMap digits) :
    .attribute s ∈ parts ∨ ∃ unit, .unitAttribute unit s ∈ parts := by
  obtain ⟨p, hp, hdigit⟩ := List.mem_flatMap.1 h
  cases p with
  | «attribute» t =>
    obtain rfl := eq_of_ofStructure_eq_shape (List.mem_singleton.1 hdigit).symm
    exact .inl hp
  | unitAttribute unit t =>
    rcases List.mem_cons.1 hdigit with hnumber | hstructure
    · cases hnumber
    · obtain rfl := eq_of_ofStructure_eq_shape (List.mem_singleton.1 hstructure).symm
      exact .inr ⟨unit, hp⟩
  | description d => cases List.mem_singleton.1 hdigit

/-- A description among the digits is that of a part. -/
lemma mem_of_description_mem {description : Description}
    (h : .description description ∈ parts.flatMap digits) : .description description ∈ parts := by
  have hstructure : ∀ t, .description description ≠ KeyDigit.ofStructure t := by
    intro t
    rw [KeyDigit.ofStructure]
    split <;> nofun
  obtain ⟨p, hp, hdigit⟩ := List.mem_flatMap.1 h
  cases p with
  | «attribute» t => exact absurd (List.mem_singleton.1 hdigit) (hstructure t)
  | unitAttribute unit t =>
    rcases List.mem_cons.1 hdigit with hnumber | hlast
    · cases hnumber
    · exact absurd (List.mem_singleton.1 hlast) (hstructure t)
  | description d =>
    obtain rfl := KeyDigit.description.inj (List.mem_singleton.1 hdigit)
    exact hp

/-- The digits of parts do not start with the structure of a texture attribute. -/
lemma head?_digits_ne (h : TexturesInUnits parts) (htexture : s.key.kind.isTextureKind = true) :
    (parts.flatMap digits).head? ≠ some (.shape s) := by
  intro hhead
  cases parts with
  | nil => cases hhead
  | cons p parts =>
    cases p with
    | «attribute» t =>
      obtain rfl := eq_of_ofStructure_eq_shape (Option.some.inj hhead)
      rw [h t List.mem_cons_self] at htexture
      cases htexture
    | unitAttribute unit t => cases hhead
    | description d => cases hhead

/-- A number and a structure are side by side at the head of some digits, or behind the first one. -/
lemma infix_cons_iff : [.number unit, .shape s] <:+: d :: rest ↔
    d = .number unit ∧ rest.head? = some (.shape s) ∨ [.number unit, .shape s] <:+: rest := by
  rw [List.infix_cons_iff, List.cons_prefix_cons, eq_comm (a := d)]
  have hhead : [KeyDigit.shape s] <+: rest ↔ rest.head? = some (.shape s) := by
    cases rest with
    | nil => simp
    | cons first rest => simp [List.cons_prefix_cons, eq_comm]
  rw [hhead]

/-- The number in front of the structure of a texture attribute is its unit. -/
lemma unitAttribute_mem_of_infix (h : TexturesInUnits parts)
    (htexture : s.key.kind.isTextureKind = true)
    (hadjacent : [.number unit, .shape s] <:+: parts.flatMap digits) :
    .unitAttribute unit s ∈ parts := by
  induction parts with
  | nil => cases List.infix_nil.1 hadjacent
  | cons p parts ih =>
    have hparts : TexturesInUnits parts := fun t ht => h t (List.mem_cons_of_mem p ht)
    have hnext := head?_digits_ne hparts htexture
    rw [List.flatMap_cons] at hadjacent
    cases p with
    | «attribute» t =>
      -- face culling has the digit of a number, but no texture attribute comes next
      rcases infix_cons_iff.1 hadjacent with ⟨-, hhead⟩ | hlater
      · exact absurd hhead hnext
      · exact List.mem_cons_of_mem _ (ih hparts hlater)
    | unitAttribute other t =>
      rcases infix_cons_iff.1 hadjacent with ⟨hnumber, hstructure⟩ | hlater
      · obtain rfl := KeyDigit.number.inj hnumber
        obtain rfl := eq_of_ofStructure_eq_shape (Option.some.inj hstructure)
        exact List.mem_cons_self
      · rcases infix_cons_iff.1 hlater with ⟨-, hhead⟩ | hlater
        · exact absurd hhead hnext
        · exact List.mem_cons_of_mem _ (ih hparts hlater)
    | description d =>
      rcases infix_cons_iff.1 hadjacent with ⟨hnumber, -⟩ | hlater
      · cases hnumber
      · exact List.mem_cons_of_mem _ (ih hparts hlater)

/-- Behind a zero, leading zeros are no neighbours of a structure but for the last one. -/
lemma infix_cons_dropWhile : [.number unit, .shape s] <:+:
      .number 0 :: rest.dropWhile (· == .number 0) ↔
    [.number unit, .shape s] <:+: .number 0 :: rest := by
  induction rest with
  | nil => rfl
  | cons d rest ih =>
    by_cases hzero : d = .number 0
    · subst hzero
      have hhead : (KeyDigit.number 0 :: rest).head? ≠ some (.shape s) := nofun
      simp only [List.dropWhile_cons, beq_self_eq_true, if_true]
      rw [ih, @infix_cons_iff _ _ _ (.number 0 :: rest)]
      simp only [hhead, and_false, false_or]
    · have hfalse : (d == .number 0) = false := beq_false_of_ne hzero
      simp only [List.dropWhile_cons, hfalse, Bool.false_eq_true, if_false]

section SameKey

variable (hkey : ProgramKey.ofParts parts = .ofParts parts')

include hkey

/-- Up to leading zeros, parts with the same key have the same digits. -/
lemma dropWhile_digits_eq : (parts.flatMap digits).dropWhile (· == .number 0) =
    (parts'.flatMap digits).dropWhile (· == .number 0) :=
  congrArg ProgramKey.digits hkey

/-- Parts with the same key have the same digits other than zero. -/
lemma mem_digits_of_ofParts_eq (hd : d ≠ .number 0) (hmem : d ∈ parts.flatMap digits) :
    d ∈ parts'.flatMap digits := by
  have hsplit := List.takeWhile_append_dropWhile (p := (· == .number 0)) (l := parts.flatMap digits)
  rw [← hsplit] at hmem
  rcases List.mem_append.1 hmem with hzero | hkept
  · have hbeq : (d == .number 0) = true := List.mem_takeWhile_imp (p := (· == KeyDigit.number 0)) hzero
    exact absurd (eq_of_beq hbeq) hd
  · rw [dropWhile_digits_eq hkey] at hkept
    exact (List.dropWhile_suffix _).subset hkept

/-- A texture attribute in a unit is in the same unit of all parts with the same key. -/
lemma unitAttribute_mem_of_ofParts_eq (h : TexturesInUnits parts')
    (htexture : s.key.kind.isTextureKind = true) (hmem : .unitAttribute unit s ∈ parts) :
    .unitAttribute unit s ∈ parts' := by
  have hshape : KeyDigit.ofStructure s = .shape s := by
    refine ofStructure_eq_shape fun hculling => ?_
    rw [hculling] at htexture
    cases htexture
  have hadjacent : [.number unit, .shape s] <:+: parts.flatMap digits := by
    obtain ⟨before, after, rfl⟩ := List.append_of_mem hmem
    rw [List.flatMap_append, List.flatMap_cons, digits, hshape]
    exact ⟨before.flatMap digits, after.flatMap digits, by simp⟩
  have hpadded : [.number unit, .shape s] <:+: .number 0 :: parts'.flatMap digits := by
    rw [← infix_cons_dropWhile, ← dropWhile_digits_eq hkey, infix_cons_dropWhile]
    exact infix_cons_iff.2 (.inr hadjacent)
  rcases infix_cons_iff.1 hpadded with ⟨-, hhead⟩ | hbehind
  · exact absurd hhead (head?_digits_ne h htexture)
  · exact unitAttribute_mem_of_infix h htexture hbehind

end SameKey

end KeyPart

/-! ## Requests with the same key -/

namespace ProgramRequest

variable {r r' : ProgramRequest} {limits limits' : BoneLimits} {unit : Nat} {a : Attribute}
  {s : AttributeStructure}

/-- The attribute is in the texture unit, or it is outside of all units, which counts like the first
one. -/
inductive Has (r : ProgramRequest) : Nat → Attribute → Prop where
  | outside {a : Attribute} : a ∈ r.attributes → Has r 0 a
  | inside {unit : Nat} {a : Attribute} : (unit, a) ∈ Roles.placed r.units → Has r unit a

lemma attribute_mem_parts_iff :
    .attribute s ∈ r.parts limits ↔ ∃ a ∈ r.attributes, a.structureOf limits = s := by
  simp [parts, unitParts_eq_map]

lemma unitAttribute_mem_parts_iff : .unitAttribute unit s ∈ r.parts limits ↔
    ∃ a, (unit, a) ∈ Roles.placed r.units ∧ a.structureOf limits = s := by
  simp [parts, unitParts_eq_map]

lemma description_mem_parts_iff {d : Description} :
    .description d ∈ r.parts limits ↔ r.description = some d := by
  simp [parts, unitParts_eq_map]

/-- Textures and shadow maps are in texture units. -/
def TexturesInUnits (r : ProgramRequest) : Prop :=
  ∀ a ∈ r.attributes, a.kind.isTextureKind = false

lemma TexturesInUnits.parts (h : r.TexturesInUnits) (limits : BoneLimits) :
    KeyPart.TexturesInUnits (r.parts limits) := by
  intro s hs
  obtain ⟨a, ha, rfl⟩ := attribute_mem_parts_iff.1 hs
  exact h a ha

/-- Requests with the same key have no description, or both have one. -/
lemma description_eq_none_of_key_eq (hkey : r'.key limits' = r.key limits)
    (h : r.description = none) : r'.description = none := by
  by_contra hsome
  obtain ⟨d, hd⟩ := Option.ne_none_iff_exists'.1 hsome
  have hdigit : .description d ∈ (r'.parts limits').flatMap KeyPart.digits :=
    List.mem_flatMap.2 ⟨_, description_mem_parts_iff.2 hd, List.mem_cons_self⟩
  have hdigit' : .description d ∈ (r.parts limits).flatMap KeyPart.digits :=
    KeyPart.mem_digits_of_ofParts_eq hkey nofun hdigit
  rw [description_mem_parts_iff.1 (KeyPart.mem_of_description_mem hdigit')] at h
  cases h

/-- **Who plays a role under the same key.** Of what plays a role in a request, every request with the
same key and with textures in texture units has an attribute that is enabled alike and has the same
signatures. -/
theorem exists_has_of_key_eq (hkey : r'.key limits' = r.key limits) (htextures : r.TexturesInUnits)
    (h : r'.roles.Plays unit a) : ∃ unit' a', r.Has unit' a' ∧ a'.isEnabled = a.isEnabled ∧
      a'.signatures unit' = a.signatures unit := by
  rcases h.of_ofAttributes with ⟨hkind, hculling, hmem⟩ | ⟨hkind, hmem⟩
  · have hshape : KeyDigit.ofStructure (a.structureOf limits') = .shape (a.structureOf limits') :=
      KeyPart.ofStructure_eq_shape fun hkey => hculling (congrArg AttributeKey.kind hkey)
    have hdigit : .shape (a.structureOf limits') ∈ (r'.parts limits').flatMap KeyPart.digits := by
      refine List.mem_flatMap.2 ⟨_, attribute_mem_parts_iff.2 ⟨a, hmem, rfl⟩, ?_⟩
      rw [KeyPart.digits, hshape]
      exact List.mem_cons_self
    have hunit : a.signatures unit = a.signatures 0 := a.signatures_of_not_texture hkind unit
    have hdistinct : KeyDigit.shape (a.structureOf limits') ≠ .number 0 := fun heq => by cases heq
    rcases KeyPart.exists_of_shape_mem (KeyPart.mem_digits_of_ofParts_eq hkey hdistinct hdigit) with
      houtside | ⟨unit', hinside⟩
    · obtain ⟨a', ha', hstructure⟩ := attribute_mem_parts_iff.1 houtside
      obtain ⟨henabled, hsignatures⟩ := Attribute.agree_of_structureOf_eq hstructure
      exact ⟨0, a', .outside ha', henabled, (hsignatures 0).trans hunit.symm⟩
    · obtain ⟨a', ha', hstructure⟩ := unitAttribute_mem_parts_iff.1 hinside
      obtain ⟨henabled, hsignatures⟩ := Attribute.agree_of_structureOf_eq hstructure
      have hunit' : a.signatures unit' = a.signatures 0 := a.signatures_of_not_texture hkind unit'
      exact ⟨unit', a', .inside ha', henabled, (hsignatures unit').trans (hunit'.trans hunit.symm)⟩
  · have hpart : .unitAttribute unit (a.structureOf limits') ∈ r'.parts limits' :=
      unitAttribute_mem_parts_iff.2 ⟨a, hmem, rfl⟩
    have hinside := KeyPart.unitAttribute_mem_of_ofParts_eq hkey (htextures.parts limits) hkind hpart
    obtain ⟨a', ha', hstructure⟩ := unitAttribute_mem_parts_iff.1 hinside
    obtain ⟨henabled, hsignatures⟩ := Attribute.agree_of_structureOf_eq hstructure
    exact ⟨unit, a', .inside ha', henabled, hsignatures unit⟩

end ProgramRequest

end SceneShading
