import Mathlib.Tactic
import SceneShading.Program.Compile

/-!
# The names of generated programs

The builders of graphs find variables by their names, and expect them to have the type that they
would have declared them with. A name that a builder asks for is a word with a number in some
places: the number of a light, of a texture unit, of a target, or one that makes a local unique. The
word alone, that is the letters of the name, decides the type (`HasType.unique`), and there are only
finitely many words.

Locals under temporary names have the letters of none of these words. A number that is put behind a
name to make it free leaves its letters alone, and it does make it free
(`Registry.contains_freeName`).
-/

namespace SceneShading

/-! ## Letters -/

/-- The characters of a name that are no digits. -/
def letters (name : String) : List Char := name.toList.filter fun c => !c.isDigit

/-- The letters of a name in two parts. -/
@[simp] lemma letters_append (a b : String) : letters (a ++ b) = letters a ++ letters b := by
  rw [letters, String.toList_append, List.filter_append, letters, letters]

/-- A number has no letters. -/
@[simp] lemma letters_toString (n : Nat) : letters (toString n) = [] := by
  refine List.filter_eq_nil_iff.2 fun c hc => ?_
  have hdigit : c.isDigit = true :=
    Nat.isDigit_of_mem_toDigits (by decide) (by decide) (Nat.toList_repr ▸ hc)
  simp [hdigit]

/-! ## Texts without directives -/

/-- The characters that make a line more than its text: a number sign can start a directive, and a
carriage return can belong to the end of the line. -/
def isSign (c : Char) : Bool := c == '#' || c == '\r'

/-- The text has no signs. It stands in a source as it is. -/
def IsPlain (text : String) : Prop := ∀ c ∈ text.toList, ¬isSign c = true

-- the characters of the text are checked, and not all characters that there are
instance (text : String) : Decidable (IsPlain text) :=
  List.decidableBAll (fun c => ¬isSign c = true) text.toList

/-- A text in two parts is plain if both parts are. -/
@[simp] lemma isPlain_append {a b : String} : IsPlain (a ++ b) ↔ IsPlain a ∧ IsPlain b := by
  rw [IsPlain, String.toList_append, List.forall_mem_append, IsPlain, IsPlain]

/-- A name is plain if its letters are. -/
lemma isPlain_of_letters {name : String} (h : ∀ c ∈ letters name, ¬isSign c = true) :
    IsPlain name := by
  intro c hc hsign
  refine h c (List.mem_filter.2 ⟨hc, ?_⟩) hsign
  rw [isSign, Bool.or_eq_true_iff, beq_iff_eq, beq_iff_eq] at hsign
  rcases hsign with rfl | rfl <;> rfl

/-- A number is plain. -/
@[simp] lemma isPlain_toString (n : Nat) : IsPlain (toString n) := by
  refine isPlain_of_letters ?_
  rw [letters_toString]
  exact List.forall_mem_nil _

/-! ## Words and types -/

/-- The words of the variables of a class in generated programs, with the types that they stand
for. -/
def words : VariableClass → List (String × String)
  | .uniform => [
    -- materials and colors
    ("uMaterialAmbient", "vec4"), ("uMaterialDiffuse", "vec4"), ("uMaterialSpecular", "vec4"),
    ("uMaterialEmission", "vec4"), ("uMaterialShininess", "float"), ("uArrayColorEnabled", "float"),
    -- lights
    ("uLight_ambient", "vec4"), ("uLight_diffuse", "vec4"), ("uLight_specular", "vec4"),
    ("uLight_position", "vec4"), ("uLight_attenuation", "vec4"), ("uLight_ground", "vec4"),
    ("uLight_direction", "vec3"), ("uLight_spotCutOff", "float"), ("uLight_spotBlend", "float"),
    ("uLight_matrix", "mat4"), ("uLight_invMatrix", "mat4"),
    -- shadows
    ("uShadowReceive_bias", "float"), ("uShadowReceive_exponent", "float"),
    ("uShadowReceive_epsilonVSM", "float"), ("uShadowTexture_viewMatrix", "mat4"),
    ("uShadowTexture_projectionMatrix", "mat4"), ("uShadowTexture_depthRange", "vec4"),
    ("uShadowTexture_mapSize", "vec4"), ("exponent", "float"), ("uShadowDepthRange", "vec4"),
    -- geometry
    ("uBones", "vec4"), ("uTargetWeights", "vec4"), ("uModelMatrix", "mat4"),
    ("uModelViewMatrix", "mat4"), ("uModelViewNormalMatrix", "mat4"), ("uProjectionMatrix", "mat4")]
  | .attribute => [
    ("Color", "vec4"), ("TexCoord", "vec2"), ("Vertex", "vec3"), ("Normal", "vec3"),
    ("Tangent", "vec4"), ("Vertex_", "vec3"), ("Normal_", "vec3"), ("Tangent_", "vec4"),
    ("Weights", "vec4"), ("Bones", "vec4")]
  | .varying => [
    ("vVertexColor", "vec4"), ("vTexCoord", "vec2"), ("vModelVertex", "vec3"),
    ("vViewVertex", "vec4"), ("vViewNormal", "vec3")]
  | .constant => [("fofd", "vec4"), ("floatWhite", "float")]
  | .temporary => [
    -- lights and textures
    ("lighted", "bool"), ("lightEyePos", "vec3"), ("lightEyeDir", "vec3"), ("lightNDL", "float"),
    ("lightMatAmbientOutput", "vec3"), ("lightAndShadowTempOutput", "vec3"),
    ("texDiffuseAccum", "vec3"), ("frontNormal", "vec3"), ("normal", "vec3"), ("eyeVector", "vec3"),
    -- geometry
    ("morphVertex", "vec3"), ("morphNormal", "vec3"), ("morphTangent", "vec3"),
    ("skinVertex", "vec3"), ("skinNormal", "vec3"), ("skinTangent", "vec3"),
    ("boneMatrix", "mat4"), ("localNormal", "vec3"), ("localTangent", "vec4"),
    ("modelVertex", "vec3"), ("modelNormal", "vec3"), ("modelTangent", "vec4"),
    ("viewVertex", "vec4"), ("viewNormal", "vec3"), ("viewTangent", "vec4")]
  | .sampler => []

/-- All words, with the classes and types of their variables. -/
def vocabulary : List (String × VariableClass × String) :=
  VariableClass.all.flatMap fun cls => (words cls).map fun e => (e.1, cls, e.2)

/-- The letters of a name are a word of the class, and the type is that of the word. -/
def HasType (cls : VariableClass) (name type : String) : Prop :=
  ∃ word, (word, type) ∈ words cls ∧ letters name = word.toList

/-- A word of a class is a word. -/
lemma mem_vocabulary {cls : VariableClass} {word type : String} (h : (word, type) ∈ words cls) :
    (word, cls, type) ∈ vocabulary := by
  refine List.mem_flatMap.2 ⟨cls, ?_, List.mem_map.2 ⟨_, h, rfl⟩⟩
  cases cls <;> decide

/-- The character can stand in a word: it is a letter or an underscore. -/
def isLetter (c : Char) : Bool := c.isAlpha || c == '_'

/-- The codes of the characters of words. -/
lemma toNat_of_isLetter {c : Char} (h : isLetter c = true) :
    65 ≤ c.toNat ∧ c.toNat ≤ 90 ∨ c.toNat = 95 ∨ 97 ≤ c.toNat ∧ c.toNat ≤ 122 := by
  rcases Bool.or_eq_true_iff.1 h with halpha | hline
  · rcases Bool.or_eq_true_iff.1 halpha with hupper | hlower
    · exact .inl (of_decide_eq_true hupper)
    · obtain ⟨hlow, hhigh⟩ := Bool.and_eq_true_iff.1 hlower
      exact .inr (.inr ⟨of_decide_eq_true hlow, of_decide_eq_true hhigh⟩)
  · exact .inr (.inl (by rw [beq_iff_eq.1 hline]; rfl))

/-- A character of a word is no digit. -/
lemma isDigit_of_isLetter {c : Char} (h : isLetter c = true) : c.isDigit = false := by
  rw [Bool.eq_false_iff]
  intro hdigit
  have hrange : 48 ≤ c.toNat ∧ c.toNat ≤ 57 := by
    simpa [Char.isDigit, UInt32.le_iff_toNat_le] using hdigit
  have hletter := toNat_of_isLetter h
  omega

/-- A character of a word is no sign. -/
lemma not_isSign_of_isLetter {c : Char} (h : isLetter c = true) : ¬isSign c = true := by
  rw [isSign, Bool.or_eq_true_iff, beq_iff_eq, beq_iff_eq]
  rintro (rfl | rfl) <;> cases h

/-- The words are made of letters and underscores. -/
lemma isLetter_of_mem_words {cls : VariableClass} {e : String × String} (h : e ∈ words cls) :
    ∀ c ∈ e.1.toList, isLetter c = true := by
  -- a word is given by its characters, since the characters of a text are slow to evaluate
  have hspelled : ∀ e ∈ words cls, ∃ chars, e.1 = String.ofList chars ∧ chars.all isLetter = true := by
    cases cls <;> simp only [words] <;> repeat' first
      | exact List.forall_mem_nil _
      | refine List.forall_mem_cons.2 ⟨⟨_, rfl, by decide⟩, ?_⟩
  obtain ⟨chars, hword, hall⟩ := hspelled e h
  rw [hword, String.toList_ofList]
  exact List.all_eq_true.1 hall

/-- The types of words are plain. -/
lemma vocabulary_plain : ∀ e ∈ vocabulary, IsPlain e.2.2 := by
  decide +kernel

/-- Temporary names and the names of samplers have other letters than words. -/
lemma vocabulary_reserved : ∀ e ∈ vocabulary, e.1 ≠ "tmp_" ∧ e.1 ≠ "Texture" := by
  decide +kernel

/-- Every word has one class and one type. -/
lemma vocabulary_nodup : (vocabulary.map (·.1)).Nodup := by
  decide +kernel

namespace HasType

variable {cls cls' : VariableClass} {name type type' : String}

/-- A word is a name of its type. -/
lemma of_mem {word : String} (h : (word, type) ∈ words cls) : HasType cls word type := by
  refine ⟨word, h, List.filter_eq_self.2 fun c hc => ?_⟩
  rw [isDigit_of_isLetter (isLetter_of_mem_words h c hc), Bool.not_false]

/-- A name has the type of another one if it has the same letters. -/
lemma of_letters {word : String} (h : HasType cls word type)
    (hletters : letters name = letters word) : HasType cls name type := by
  obtain ⟨w, hmem, hword⟩ := h
  exact ⟨w, hmem, hletters.trans hword⟩

/-- A name has one class and one type only. -/
lemma unique (h : HasType cls name type) (h' : HasType cls' name type') :
    cls = cls' ∧ type = type' := by
  obtain ⟨word, hmem, hletters⟩ := h
  obtain ⟨word', hmem', hletters'⟩ := h'
  have hword : word = word' := String.toList_injective (hletters.symm.trans hletters')
  subst hword
  have heq := List.inj_on_of_nodup_map vocabulary_nodup (mem_vocabulary hmem)
    (mem_vocabulary hmem') rfl
  rw [Prod.mk.injEq, Prod.mk.injEq] at heq
  exact heq.2

/-- The name of a variable is plain. -/
lemma isPlain_name (h : HasType cls name type) : IsPlain name := by
  obtain ⟨word, hmem, hletters⟩ := h
  refine isPlain_of_letters fun c hc => ?_
  rw [hletters] at hc
  exact not_isSign_of_isLetter (isLetter_of_mem_words hmem c hc)

/-- The type of a variable is plain. -/
lemma isPlain_type (h : HasType cls name type) : IsPlain type := by
  obtain ⟨word, hmem, -⟩ := h
  exact vocabulary_plain _ (mem_vocabulary hmem)

/-- A number behind a name changes nothing. -/
lemma append_toString (h : HasType cls name type) (n : Nat) :
    HasType cls (name ++ toString n) type :=
  h.of_letters (by rw [letters_append, letters_toString, List.append_nil])

/-- The name of a variable is no temporary name. -/
lemma letters_ne_temporary (h : HasType cls name type) : letters name ≠ "tmp_".toList := by
  obtain ⟨word, hmem, hletters⟩ := h
  rw [hletters]
  exact fun heq => (vocabulary_reserved _ (mem_vocabulary hmem)).1 (String.toList_injective heq)

/-- The name of a variable is no name of a sampler. -/
lemma letters_ne_sampler (h : HasType cls name type) : letters name ≠ "Texture".toList := by
  obtain ⟨word, hmem, hletters⟩ := h
  rw [hletters]
  exact fun heq => (vocabulary_reserved _ (mem_vocabulary hmem)).2 (String.toList_injective heq)

end HasType

/-! ## Shared names -/

/-- The words of the locals that builders find again under their names. -/
def sharedWords : List String :=
  ["normal", "eyeVector", "morphVertex", "morphNormal", "morphTangent", "skinVertex", "skinNormal",
   "skinTangent", "boneMatrix", "localNormal", "localTangent", "modelVertex", "modelNormal",
   "modelTangent", "viewVertex", "viewNormal", "viewTangent"]

/-- The name may be that of a local which is found again. -/
def IsShared (name : String) : Prop := letters name ∈ sharedWords.map String.toList

instance (name : String) : Decidable (IsShared name) :=
  inferInstanceAs (Decidable (letters name ∈ sharedWords.map String.toList))

/-- A number behind a name changes nothing. -/
lemma isShared_append_toString (name : String) (n : Nat) :
    IsShared (name ++ toString n) ↔ IsShared name := by
  rw [IsShared, letters_append, letters_toString, List.append_nil, IsShared]

/-! ## Names with numbers -/

/-- The letters of a numbered field are those of the name without the number. -/
lemma letters_numbered (stem field : String) (n : Nat) :
    letters (stem ++ toString n ++ "_" ++ field) = letters (stem ++ "_" ++ field) := by
  simp only [letters_append, letters_toString, List.append_nil]

/-- The uniforms of a light have the types that the library gives them. -/
lemma hasType_light (number : Nat) {model : LightModel} {field : String}
    (h : field ∈ model.uniformFields) :
    HasType .uniform (Light.uniformName number field) (Light.uniformType field) := by
  have hwords : ∀ field ∈ LightModel.spot.uniformFields ++ LightModel.hemi.uniformFields,
      ("uLight" ++ "_" ++ field, Light.uniformType field) ∈ words .uniform := by
    decide
  have hfield : field ∈ LightModel.spot.uniformFields ++ LightModel.hemi.uniformFields := by
    revert h field
    cases model <;> decide
  exact (HasType.of_mem (hwords field hfield)).of_letters (letters_numbered "uLight" field number)

/-- The ambient color of a light is a color, whatever its model. -/
lemma hasType_ambient (number : Nat) :
    HasType .uniform (Light.uniformName number "ambient") "vec4" := by
  have hfield : "ambient" ∈ LightModel.sun.uniformFields := List.mem_cons_self
  exact hasType_light number hfield

/-- The uniforms of a receiver are numbers. -/
lemma hasType_receiver (light : Nat) {field : String} (h : field ∈ FragmentGraph.receiverFields) :
    HasType .uniform (ShadowReceive.uniformName light field) "float" := by
  refine HasType.of_letters ?_ (letters_numbered "uShadowReceive" field light)
  have hwords : ∀ field ∈ FragmentGraph.receiverFields,
      ∃ word ∈ ["uShadowReceive_bias", "uShadowReceive_exponent", "uShadowReceive_epsilonVSM"],
        letters ("uShadowReceive" ++ "_" ++ field) = word.toList := by
    decide
  have hmem : ∀ word ∈ ["uShadowReceive_bias", "uShadowReceive_exponent",
      "uShadowReceive_epsilonVSM"], (word, "float") ∈ words .uniform := by
    decide
  obtain ⟨word, hword, hletters⟩ := hwords field h
  exact ⟨word, hmem word hword, hletters⟩

/-- The uniforms of a shadow map have the types that the fields are listed with. -/
lemma hasType_shadowMap (unit : Nat) {e : String × String × String}
    (h : e ∈ FragmentGraph.shadowMapFields) :
    HasType .uniform (ShadowTexture.uniformName unit e.1) e.2.2 := by
  have hwords : ∀ e ∈ FragmentGraph.shadowMapFields,
      ("uShadowTexture" ++ "_" ++ e.1, e.2.2) ∈ words .uniform := by
    decide
  exact (HasType.of_mem (hwords e h)).of_letters (letters_numbered "uShadowTexture" e.1 unit)

/-- The coordinates of a texture are an attribute of the geometry. -/
lemma hasType_texCoord (unit : Nat) : HasType .attribute ("TexCoord" ++ toString unit) "vec2" :=
  have hword : HasType .attribute "TexCoord" "vec2" := .of_mem (by simp [words])
  hword.append_toString unit

/-- What a vertex stage carries to a fragment stage: the geometry, the color and the texture
coordinates of the vertices. -/
inductive Carried : String → String → Prop where
  | vertexColor : Carried "vVertexColor" "vec4"
  | viewNormal : Carried "vViewNormal" "vec3"
  | viewVertex : Carried "vViewVertex" "vec4"
  | modelVertex : Carried "vModelVertex" "vec3"
  | texCoord (unit : Nat) : Carried ("vTexCoord" ++ toString unit) "vec2"

/-- Varyings have names of their types. -/
lemma Carried.hasType {name type : String} (h : Carried name type) :
    HasType .varying name type := by
  cases h with
  | vertexColor => exact .of_mem (by simp [words])
  | viewNormal => exact .of_mem (by simp [words])
  | viewVertex => exact .of_mem (by simp [words])
  | modelVertex => exact .of_mem (by simp [words])
  | texCoord unit =>
    have hword : HasType .varying "vTexCoord" "vec2" := .of_mem (by simp [words])
    exact hword.append_toString unit

/-- Varyings have names of their own. -/
lemma Carried.not_isShared {name type : String} (h : Carried name type) : ¬IsShared name := by
  cases h with
  | texCoord unit =>
    rw [isShared_append_toString]
    decide
  | _ => decide

/-- A sampler has the letters of samplers. -/
lemma letters_samplerName (unit : Nat) : letters (samplerName unit) = "Texture".toList := by
  have hword : letters "Texture" = "Texture".toList := by decide
  rw [samplerName, letters_append, letters_toString, List.append_nil, hword]

/-- A temporary name has the letters of temporary names. -/
lemma letters_temporary (k : Nat) : letters ("tmp_" ++ toString k) = "tmp_".toList := by
  have hword : letters "tmp_" = "tmp_".toList := by decide
  rw [letters_append, letters_toString, List.append_nil, hword]

/-- Temporary names are not shared. -/
lemma not_isShared_temporary (k : Nat) : ¬IsShared ("tmp_" ++ toString k) := by
  rw [isShared_append_toString]
  decide

/-- Names with different numbers are different. -/
lemma append_toString_injective (name : String) :
    Function.Injective fun n : Nat => name ++ toString n := by
  intro a b h
  have hlists := congrArg String.toList h
  simp only [String.toList_append, List.append_cancel_left_eq] at hlists
  have hdigits : Nat.toDigits 10 a = Nat.toDigits 10 b := by
    rwa [Nat.toString_eq_repr, Nat.toString_eq_repr, Nat.toList_repr, Nat.toList_repr] at hlists
  rw [← Nat.ofDigitChars_toDigits (b := 10) (n := a) (by decide) (by decide), hdigits,
    Nat.ofDigitChars_toDigits (by decide) (by decide)]

namespace Registry

/-- A registry does not hold the name that it makes free: among one number more than it has names,
one is not taken. -/
lemma contains_freeName (r : Registry) (name : String) : r.contains (r.freeName name) = false := by
  rw [freeName]
  cases hfind : ((List.range (r.size + 1)).map (· + 1)).find?
      fun n => !r.contains (name ++ toString n) with
  | some n =>
    have hfree := List.find?_some hfind
    rw [Bool.not_eq_true'] at hfree
    exact hfree
  | none =>
    -- all the numbered names would be registered, which are more names than there are
    exfalso
    let candidates := ((List.range (r.size + 1)).map (· + 1)).map fun n => name ++ toString n
    have hnodup : candidates.Nodup :=
      (List.nodup_range.map Nat.succ_injective).map (append_toString_injective name)
    have hsub : candidates ⊆ r.names := by
      intro candidate hmem
      obtain ⟨n, hn, rfl⟩ := List.mem_map.1 hmem
      have htaken := List.find?_eq_none.1 hfind n hn
      rw [Bool.not_eq_true, Bool.not_eq_false'] at htaken
      exact mem_names_iff.2 htaken
    have hle := (hnodup.subperm hsub).length_le
    simp only [candidates, List.length_map, List.length_range, names, size] at hle
    omega

/-- The name of a new local under a wanted name is the wanted one, perhaps with a number, and it is
not registered. -/
lemma localName_some (r : Registry) (name : String) :
    r.contains (r.localName (some name)) = false ∧ (r.localName (some name) = name ∨
      ∃ n : Nat, r.localName (some name) = name ++ toString n) := by
  rw [localName]
  split
  · exact ⟨r.contains_freeName name, .inr ⟨_, rfl⟩⟩
  next h => exact ⟨Bool.eq_false_of_not_eq_true h, .inl rfl⟩

end Registry

/-- A new local under a wanted name has the type of that name. -/
lemma HasType.localName {cls : VariableClass} {name type : String} (h : HasType cls name type)
    (r : Registry) : HasType cls (r.localName (some name)) type := by
  rcases (r.localName_some name).2 with heq | ⟨n, heq⟩
  · rw [heq]
    exact h
  · rw [heq]
    exact h.append_toString n

end SceneShading
