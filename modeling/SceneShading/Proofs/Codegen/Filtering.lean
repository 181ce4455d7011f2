import Mathlib.Tactic
import SceneShading.Proofs.Codegen.Collection
import SceneShading.Proofs.Codegen.Compilation
import SceneShading.Proofs.Program.Contents
import SceneShading.Proofs.Source.Defined

/-!
# Code for the filtering of shadows

The library declares one function that receives shadows. Which parameters it has depends on the names
that are defined where it is included (`Source.receiveParameters`): a chain of sections chooses the
ones of the algorithm.
-/

namespace SceneShading

/-! ## Sections -/

namespace Source

open Text

/-- A line that bounds sections of a text: a test for a name opens a chain of sections, another test
turns to the next one, and an end closes the chain. -/
inductive SectionBound where
  | opens (name : String)
  | turns (name : String)
  | closes
deriving DecidableEq

namespace SectionBound

/-- The bound that a line is. -/
def ofLine? (line : List Char) : Option SectionBound :=
  match Text.tokens (fun c => isBlank c || c == '(' || c == ')') (String.ofList line) with
  | ["#if", "defined", name] => some (opens name)
  | ["#elif", "defined", name] => some (turns name)
  | ["#endif"] => some closes
  | _ => none

/-- The name that is tested. -/
def name? : SectionBound → Option String
  | opens name | turns name => some name
  | closes => none

end SectionBound

/-- Where a line stands in a chain of sections: outside of it, before the section that is chosen, in
it, or behind it. -/
inductive Standing where
  | outside
  | before
  | inside
  | behind
deriving DecidableEq

namespace Standing

/-- Where the lines behind a bound stand. -/
def next (defined : String → Bool) : Standing → SectionBound → Standing
  | _, .opens name => if defined name then inside else before
  | before, .turns name => if defined name then inside else before
  | outside, .turns _ => outside
  | _, .turns _ => behind
  | _, .closes => outside

/-- The line is left. -/
def stays : Standing → Bool
  | outside | inside => true
  | before | behind => false

end Standing

/-- The lines that are left of the sections of a text. -/
def chosenLines (defined : String → Bool) : Standing → List (List Char) → List (List Char)
  | _, [] => []
  | standing, line :: lines =>
    match SectionBound.ofLine? line with
    | some bound => chosenLines defined (standing.next defined bound) lines
    | none =>
      (if standing.stays then [line] else []) ++ chosenLines defined standing lines

/-- The first line of the function that receives shadows. -/
def receiveMark : List Char :=
  ['f', 'l', 'o', 'a', 't', ' ', 'c', 'o', 'm', 'p', 'u', 't', 'e', 'S', 'h', 'a', 'd', 'o', 'w', '(']

/-- Of the lines of a file, those that declare the function that receives shadows, up to its body. -/
def headerOf (lines : List (List Char)) : List (List Char) :=
  (lines.dropWhile fun line => !receiveMark.isPrefixOf line).takeWhile fun line => !line.contains '\x7b'

/-- The lines of the library that declare the function that receives shadows. -/
def receiveHeader : List (List Char) := headerOf (linesOf Builtin.shadowsReceive.toList)

/-- The parameters that lines declare: what stands between commas in the lines that are left. -/
def parametersOf (defined : String → Bool) (lines : List (List Char)) : List (List Char) :=
  split (· == ',') (chosenLines defined .outside lines).flatten

/-- The parameters that the library declares for the function that receives shadows. -/
def receiveParameters (defined : String → Bool) : List (List Char) :=
  parametersOf defined receiveHeader

/-- The names that are tested. -/
def testedNames (lines : List (List Char)) : List String :=
  lines.filterMap fun line => (SectionBound.ofLine? line).bind SectionBound.name?

/-- What is chosen depends on the names that are tested. -/
lemma chosenLines_congr {defined defined' : String → Bool} {lines : List (List Char)}
    (h : ∀ name ∈ testedNames lines, defined name = defined' name) (standing : Standing) :
    chosenLines defined standing lines = chosenLines defined' standing lines := by
  induction lines generalizing standing with
  | nil => rfl
  | cons line lines ih =>
    have hrest := ih fun name hname => h name (by
      rw [testedNames, List.filterMap_cons]
      split
      · exact hname
      · exact List.mem_cons_of_mem _ hname)
    rw [chosenLines, chosenLines]
    cases hbound : SectionBound.ofLine? line with
    | none => rw [hrest]
    | some bound =>
      have hname : ∀ name ∈ bound.name?, defined name = defined' name := fun name hname =>
        h name (List.mem_filterMap.2 ⟨line, List.mem_cons_self, by rwa [hbound]⟩)
      have hnext : standing.next defined bound = standing.next defined' bound := by
        cases bound with
        | opens name => simp only [Standing.next, hname name rfl]
        | turns name => cases standing <;> simp only [Standing.next, hname name rfl]
        | closes => rfl
      simp only [hnext, hrest]

/-- The header tests for three names, and how many parameters are left depends on the first of them that
is defined. None of its lines includes a file. -/
lemma receiveHeader_checked : testedNames receiveHeader = ["_ESM", "_EVSM", "_VSM"] ∧
    (∀ esm evsm vsm : Bool, (receiveParameters fun name =>
      if name = "_ESM" then esm else if name = "_EVSM" then evsm else vsm).length =
        9 + if esm then 2 else if evsm then 3 else if vsm then 1 else 0) ∧
      ∀ line ∈ receiveHeader, Include.ofLine? line = none ∧ '\r' ∉ line := by
  obtain ⟨lines, hlines, hchecked⟩ : ∃ lines, linesOf Builtin.shadowsReceive.toList = lines ∧
      testedNames (headerOf lines) = ["_ESM", "_EVSM", "_VSM"] ∧
      (∀ esm evsm vsm : Bool, (parametersOf (fun name =>
        if name = "_ESM" then esm else if name = "_EVSM" then evsm else vsm) (headerOf lines)).length =
          9 + if esm then 2 else if evsm then 3 else if vsm then 1 else 0) ∧
        ∀ line ∈ headerOf lines, Include.ofLine? line = none ∧ '\r' ∉ line :=
    ⟨_, linesOf_ofLines (by repeat' constructor) (by decide +kernel), by decide +kernel⟩
  rw [← hlines] at hchecked
  exact hchecked

/-- The header is a block of lines of its file. -/
lemma exists_receiveHeader : ∃ before after,
    linesOf Builtin.shadowsReceive.toList = before ++ (receiveHeader ++ after) := by
  rw [receiveHeader, headerOf]
  generalize linesOf Builtin.shadowsReceive.toList = lines
  refine ⟨lines.takeWhile fun line => !receiveMark.isPrefixOf line,
    (lines.dropWhile fun line => !receiveMark.isPrefixOf line).dropWhile fun line => !line.contains '\x7b', ?_⟩
  rw [List.takeWhile_append_dropWhile, List.takeWhile_append_dropWhile]

/-- The number of parameters is decided by the tests for three names, in their order. -/
lemma length_receiveParameters (defined : String → Bool) :
    (receiveParameters defined).length = 9 + if defined "_ESM" then 2 else
      if defined "_EVSM" then 3 else if defined "_VSM" then 1 else 0 := by
  obtain ⟨hnames, hcases, -⟩ := receiveHeader_checked
  have hsame : chosenLines defined .outside receiveHeader = chosenLines (fun name =>
      if name = "_ESM" then defined "_ESM" else if name = "_EVSM" then defined "_EVSM"
        else defined "_VSM") .outside receiveHeader := by
    refine chosenLines_congr (fun name hname => ?_) _
    rw [hnames] at hname
    simp only [List.mem_cons, List.not_mem_nil, or_false] at hname
    rcases hname with rfl | rfl | rfl <;> rfl
  rw [← hcases (defined "_ESM") (defined "_EVSM") (defined "_VSM"), receiveParameters, receiveParameters,
    parametersOf, parametersOf, hsame]

end Source

/-! ## Names of a configuration -/

/-- The name that is defined for an algorithm. -/
def ShadowAlgorithm.selector : ShadowAlgorithm → String
  | none => "_NONE"
  | pcf => "_PCF"
  | esm => "_ESM"
  | vsm => "_VSM"
  | evsm => "_EVSM"

namespace ShadowConfig

open Source

variable {c c' : ShadowConfig} {a : ShadowAlgorithm} {s line line' : String}

/-- What is defined besides the algorithm. -/
def otherSelectors : List String :=
  ["_FAKE_PCF 1", "_POISSON_PCF", "_BAND_PCF", "_TAP_PCF", "_PCFx1", "_PCFx4", "_PCFx9", "_PCFx16",
   "_PCFx25", "_PCFx32", "_FLOATTEX", "_FLOATLINEAR", "_ROTATE_OFFSET"]

/-- Whatever is defined for some configuration. -/
def allSelectors : List String := ShadowAlgorithm.all.map (·.selector) ++ otherSelectors

/-- A configuration defines its algorithm and others; the kernels of percentage closer filtering can
also name the missing algorithm. -/
lemma mem_selectors (h : s ∈ c.selectors) : s = c.algorithm.selector ∨
    c.algorithm = .pcf ∧ s = "_NONE" ∨ s ∈ otherSelectors := by
  have hkernel : ∀ kernel : PcfKernel, ∀ s ∈ kernel.selectors, s = "_NONE" ∨ s ∈ otherSelectors := by
    intro kernel
    cases kernel <;> decide
  have hfake : "_FAKE_PCF 1" ∈ otherSelectors := by decide
  have htexel : "_FLOATTEX" ∈ otherSelectors ∧ "_FLOATLINEAR" ∈ otherSelectors ∧
      "_ROTATE_OFFSET" ∈ otherSelectors := by decide
  obtain ⟨algorithm, kernel, fake, rotate, precision⟩ := c
  simp only [selectors, List.mem_append, List.mem_ite_nil_right, List.mem_singleton] at h
  rcases h with ((h | ⟨-, rfl⟩) | ⟨-, rfl⟩) | ⟨-, rfl⟩
  · cases algorithm with
    | pcf =>
      simp only [algorithmSelectors, List.mem_append, List.mem_ite_nil_right, List.mem_singleton] at h
      rcases h with (rfl | ⟨-, rfl⟩) | h
      · exact .inl rfl
      · exact .inr (.inr hfake)
      · exact .inr ((hkernel kernel s h).imp_left fun heq => ⟨rfl, heq⟩)
    | none | esm | vsm | evsm => exact .inl (List.mem_singleton.1 h)
  · exact .inr (.inr htexel.1)
  · exact .inr (.inr htexel.2.1)
  · exact .inr (.inr htexel.2.2)

/-- The algorithm of a configuration is defined. -/
lemma selector_mem_selectors (c : ShadowConfig) : c.algorithm.selector ∈ c.selectors := by
  obtain ⟨algorithm, kernel, fake, rotate, precision⟩ := c
  refine List.mem_append_left _ (List.mem_append_left _ (List.mem_append_left _ ?_))
  cases algorithm <;> exact List.mem_cons_self

/-- The name of another algorithm is defined for no configuration, but for the missing one. -/
lemma selector_mem_selectors_iff (ha : a ≠ .none) : a.selector ∈ c.selectors ↔ c.algorithm = a := by
  have hother : ∀ a : ShadowAlgorithm, a.selector ∉ otherSelectors := by
    intro a
    cases a <;> decide
  have hinj : ∀ b : ShadowAlgorithm, a.selector = b.selector → b = a := by
    intro b
    cases a <;> cases b <;> decide
  constructor
  · intro h
    rcases mem_selectors h with heq | ⟨-, heq⟩ | hmem
    · exact hinj _ heq
    · exact absurd (hinj .none heq).symm ha
    · exact absurd hmem (hother a)
  · rintro rfl
    exact selector_mem_selectors c

/-- Where the missing algorithm is defined, no parameters are added. -/
lemma algorithm_of_none_mem (h : "_NONE" ∈ c.selectors) :
    c.algorithm = .none ∨ c.algorithm = .pcf := by
  rcases mem_selectors h with heq | ⟨heq, -⟩ | hmem
  · revert heq
    cases c.algorithm <;> decide
  · exact .inr heq
  · exact absurd hmem (by decide)

/-- Whatever a configuration defines is in the list. -/
lemma selectors_subset (c : ShadowConfig) : c.selectors ⊆ allSelectors := by
  have hnone : "_NONE" ∈ allSelectors := List.mem_append_left _ List.mem_cons_self
  intro s hs
  rcases mem_selectors hs with rfl | ⟨-, rfl⟩ | hother
  · refine List.mem_append_left _ (List.mem_map_of_mem ?_)
    cases c.algorithm <;> decide
  · exact hnone
  · exact List.mem_append_right _ hother

/-- The name that a definition line defines. -/
def nameOf? (line : String) : Option String := (parseDefineLine line).map (·.1)

/-- The definition lines of configurations define names of their own, which start with an underscore,
and they are printed as they are. -/
lemma allSelectors_checked :
    (∀ s ∈ allSelectors, (parseDefineLine ("#define " ++ s)).any (fun p =>
      p.1.toList.head? == some '_' && defineLine p.1 p.2 == "#define " ++ s) = true) ∧
      (allSelectors.map fun s => nameOf? ("#define " ++ s)).Nodup := by
  decide +kernel

/-- A definition line is read as a name that it defines, and printed as it is. -/
lemma exists_name_of_mem_defines (h : line ∈ c.defines) : ∃ name value,
    parseDefineLine line = some (name, value) ∧ IsMarked name ∧ defineLine name value = line := by
  obtain ⟨s, hs, rfl⟩ := List.mem_map.1 h
  obtain ⟨p, hp, hchecked⟩ := (Option.any_eq_true _ _).1
    (allSelectors_checked.1 s (selectors_subset c hs))
  obtain ⟨hmarked, hprinted⟩ := Bool.and_eq_true_iff.1 hchecked
  exact ⟨p.1, p.2, hp, beq_iff_eq.1 hmarked, beq_iff_eq.1 hprinted⟩

/-- No two definition lines of configurations define the same name. -/
lemma eq_of_nameOf?_eq (h : line ∈ c.defines) (h' : line' ∈ c'.defines)
    (hname : nameOf? line = nameOf? line') : line = line' := by
  obtain ⟨s, hs, rfl⟩ := List.mem_map.1 h
  obtain ⟨s', hs', rfl⟩ := List.mem_map.1 h'
  rw [List.inj_on_of_nodup_map allSelectors_checked.2 (selectors_subset c hs)
    (selectors_subset c' hs') hname]

/-- Where the lines of a configuration are defined by another one, the algorithms take as many
parameters, and need the same extensions. -/
lemma agree_of_defines_subset (h : c.defines ⊆ c'.defines) :
    c.receivePins.length = c'.receivePins.length ∧ c.extensions ⊆ c'.extensions := by
  have hselectors : c.algorithm.selector ∈ c'.selectors := by
    have hline := h (List.mem_map_of_mem (selector_mem_selectors c))
    obtain ⟨s, hs, heq⟩ := List.mem_map.1 hline
    rwa [← String.append_right_inj "#define " |>.1 heq]
  have hsame : c.algorithm = .none ∧ c'.algorithm = .pcf ∨ c.algorithm = c'.algorithm := by
    by_cases hnone : c.algorithm = .none
    · rw [hnone] at hselectors ⊢
      exact (algorithm_of_none_mem hselectors).symm.imp (fun hpcf => ⟨rfl, hpcf⟩) Eq.symm
    · exact .inr ((selector_mem_selectors_iff hnone).1 hselectors).symm
  simp only [receivePins, List.length_append, algorithmPins, extensions]
  rcases hsame with ⟨hnone, hpcf⟩ | heq
  · rw [hnone, hpcf]
    exact ⟨rfl, List.nil_subset _⟩
  · rw [heq]
    exact ⟨rfl, List.Subset.refl _⟩

/-- The parameters of a configuration, as the library counts them. -/
lemma length_receivePins (c : ShadowConfig) : c.receivePins.length =
    9 + if c.algorithm = .esm then 2 else if c.algorithm = .evsm then 3
      else if c.algorithm = .vsm then 1 else 0 := by
  rw [receivePins, List.length_append, algorithmPins]
  cases c.algorithm <;> rfl

end ShadowConfig

/-! ## The first receiver -/

namespace Node

/-- How a node filters shadows, if it receives any. -/
def receives? (n : Node) : Option ShadowConfig :=
  match n.kind with
  | .shadowReceive config => some config
  | _ => none

lemma receives?_eq_some_iff {n : Node} {config : ShadowConfig} :
    n.receives? = some config ↔ n.kind = .shadowReceive config := by
  unfold receives?
  cases n.kind <;> simp

/-- Only receivers have the name of their type. -/
lemma typeName_eq_iff {n : Node} : n.typeName = "ShadowReceive" ↔ n.receives?.isSome := by
  unfold typeName receives?
  generalize n.kind = kind
  cases kind with
  | shadowReceive config => simp [NodeKind.typeName]
  | var v => obtain ⟨cls, _, _, _, _⟩ := v; cases cls <;> simp +decide [NodeKind.typeName]
  | output b => cases b <;> simp +decide
  | matrixMult m => obtain ⟨role, _, _, _⟩ := m; cases role <;> simp +decide [NodeKind.typeName]
  | function f => cases f <;> simp +decide
  | texture fetch => cases fetch <;> simp +decide
  | light model => cases model <;> simp +decide
  | _ => simp +decide [NodeKind.typeName]

/-- A receiver has a function of the library. -/
lemma functionDeclaration_of_receives? {n : Node} {config : ShadowConfig}
    (h : n.receives? = some config) :
    n.functionDeclaration = some (includeLine "shadowsReceive.glsl") := by
  rw [functionDeclaration, receives?_eq_some_iff.1 h]

end Node

section Speaker

variable {roles : Roles} {nodes : List Node} {speaker : ShadowConfig}

/-- By a key that sets receivers apart, the first receiver is the only one that is kept. -/
lemma receives?_firstByKey {key : Node → String} (hkey : ∀ n ∈ nodes,
      key n = "ShadowReceive" ↔ n.receives?.isSome)
    (hspeaker : nodes.findSome? Node.receives? = some speaker) :
    ∃ n ∈ firstByKey key [] nodes, n.receives? = some speaker ∧
      ∀ m ∈ firstByKey key [] nodes, m.receives?.isSome → m = n := by
  obtain ⟨before, n, after, rfl, hn, hbefore⟩ := List.findSome?_eq_some_iff.1 hspeaker
  have hname := (hkey n (List.mem_append_right _ List.mem_cons_self)).2 (by rw [hn]; rfl)
  have hfirst : n ∈ firstByKey key [] (before ++ n :: after) := by
    refine mem_firstByKey.2 ⟨List.not_mem_nil, before, after, rfl, fun b hb heq => ?_⟩
    have hreceives := (hkey b (List.mem_append_left _ hb)).1 (heq.trans hname)
    rw [hbefore b hb] at hreceives
    cases hreceives
  refine ⟨n, hfirst, hn, fun m hm hreceives => eq_of_mem_firstByKey hm hfirst ?_⟩
  exact ((hkey m (mem_of_mem_firstByKey hm)).2 hreceives).trans hname.symm

/-- Programs with receivers need the extensions of their first receiver. -/
lemma mem_collectExtensions_iff (hspeaker : nodes.findSome? Node.receives? = some speaker)
    {line : String} : line ∈ collectExtensions nodes ↔ line ∈ speaker.extensions := by
  obtain ⟨n, hn, hreceives, hunique⟩ := receives?_firstByKey (fun n _ => Node.typeName_eq_iff) hspeaker
  have hextensions : n.extensions = speaker.extensions := by
    rw [Node.extensions, Node.receives?_eq_some_iff.1 hreceives]
  rw [collectExtensions, List.mem_flatMap]
  constructor
  · rintro ⟨m, hm, hline⟩
    have hreceiver : m.receives?.isSome := by
      unfold Node.extensions at hline
      unfold Node.receives?
      generalize m.kind = kind at hline
      cases kind with
      | shadowReceive config => rfl
      | _ => cases hline
    rw [hunique m hm hreceiver, hextensions] at hline
    exact hline
  · intro hline
    exact ⟨n, hn, hextensions ▸ hline⟩

/-- The first receiver brings the function that receives shadows. -/
lemma includeLine_mem_collectFunctions (hspeaker : nodes.findSome? Node.receives? = some speaker) :
    Node.includeLine "shadowsReceive.glsl" ∈ collectFunctions nodes := by
  obtain ⟨n, hn, hreceives, -⟩ := receives?_firstByKey (fun n _ => Node.typeName_eq_iff) hspeaker
  exact List.mem_filterMap.2 ⟨n, hn, Node.functionDeclaration_of_receives? hreceives⟩

/-- Among allowed nodes, the key of definitions sets receivers apart. -/
lemma defineKey_eq_iff {n : Node} (hallows : roles.Allows n.kind) :
    n.defineKey = "ShadowReceive" ↔ n.receives?.isSome := by
  rw [← Node.typeName_eq_iff]
  unfold Node.defineKey
  cases hkind : n.kind with
  | define name value =>
    rw [hkind] at hallows
    obtain ⟨rfl, -⟩ := hallows
    rw [Node.typeName, hkind]
    exact iff_of_false (show ¬"SHADER_NAME" = "ShadowReceive" by decide)
      (show ¬"Define" = "ShadowReceive" by decide)
  | _ => rfl

/-- Besides the name of the program, programs with receivers define what their first receiver
defines. -/
lemma mem_collectDefines_iff (hallowed : ∀ n ∈ nodes, roles.Allows n.kind)
    (hspeaker : nodes.findSome? Node.receives? = some speaker) {line : String}
    (hline : line ≠ defineLine "SHADER_NAME" roles.programName) :
    line ∈ collectDefines nodes ↔ line ∈ speaker.defines := by
  obtain ⟨n, hn, hreceives, hunique⟩ := receives?_firstByKey
    (fun n hn => defineKey_eq_iff (hallowed n hn)) hspeaker
  have hdefines : n.defines = speaker.defines := by
    rw [Node.defines, Node.receives?_eq_some_iff.1 hreceives]
  -- a program that receives shadows casts none
  have hcast : roles.cast = none := by
    have hallows := hallowed n (mem_of_mem_firstByKey hn)
    rw [Node.receives?_eq_some_iff.1 hreceives] at hallows
    exact hallows.1
  rw [collectDefines, List.mem_flatMap]
  constructor
  · rintro ⟨m, hm, hdefined⟩
    have hallows := hallowed m (mem_of_mem_firstByKey hm)
    cases hkind : m.kind with
    | define name value =>
      rw [hkind] at hallows
      obtain ⟨rfl, rfl⟩ := hallows
      rw [Node.defines, hkind] at hdefined
      exact absurd (List.mem_singleton.1 hdefined) hline
    | shadowReceive config =>
      have hreceiver := Node.receives?_eq_some_iff.2 hkind
      rw [hunique m hm (by rw [hreceiver]; rfl), hdefines] at hdefined
      exact hdefined
    | shadowCast config =>
      rw [hkind] at hallows
      change roles.cast.isSome at hallows
      rw [hcast] at hallows
      cases hallows
    | _ =>
      rw [Node.defines, hkind] at hdefined
      cases hdefined
  · intro hdefined
    exact ⟨n, hn, hdefines ▸ hdefined⟩

end Speaker

end SceneShading
