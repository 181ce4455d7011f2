import Mathlib.Tactic
import SceneShading.Json.Printer
import SceneShading.Json.Reader

/-!
# Reading what was written

A value over several lines is read back as itself (`Json.parse_pretty`), whatever characters its
strings have. This is about the values that descriptions are written as, in which numbers are
integers and strings denote texts (`Json.Spelled`).

Between the text and the value stand the tokens of the value (`Json.tokens`). The scanner finds them in
the text (`Json.Spelled.lexes`): every token and every blank is found whatever comes behind it, with
the exception of numbers, which end where something else begins (`Token.Apart`). The reader makes the
value of them (`Json.Spelled.reads`).
-/

namespace SceneShading.Json

namespace Token

/-! ## Numbers -/

/-- The character is none that a number goes on with. -/
def EndsNumber (c : Char) : Prop := c.isDigit = false ∧ c ≠ '.' ∧ c ≠ 'e' ∧ c ≠ 'E'

/-- A number in front of the text ends where the text starts. -/
def Apart (rest : List Char) : Prop := ∀ c ∈ rest.head?, EndsNumber c

lemma takeDigits_append {ds rest : List Char} (hds : ∀ c ∈ ds, c.isDigit = true)
    (hrest : Apart rest) : takeDigits (ds ++ rest) = (ds, rest) := by
  have hstop : rest.takeWhile Char.isDigit = [] ∧ rest.dropWhile Char.isDigit = rest := by
    cases rest with
    | nil => exact ⟨rfl, rfl⟩
    | cons c rest =>
      have hc : ¬c.isDigit = true := by
        rw [(hrest c rfl).1]
        exact Bool.false_ne_true
      exact ⟨List.takeWhile_cons_of_neg hc, List.dropWhile_cons_of_neg hc⟩
  rw [takeDigits, List.takeWhile_append_of_pos hds, List.dropWhile_append_of_pos hds, hstop.1,
    hstop.2, List.append_nil]

lemma digitsValue_toDigits (n : Nat) : digitsValue (Nat.toDigits 10 n) = n := by
  have hvalue : digitsValue (Nat.toDigits 10 n) = Nat.ofDigitChars 10 (Nat.toDigits 10 n) 0 := by
    unfold digitsValue Nat.ofDigitChars
    congr 1
    funext n c
    rw [Nat.mul_comm]
  rw [hvalue, Nat.ofDigitChars_toDigits (by decide) (by decide)]

lemma isDigit_of_mem_toDigits {n : Nat} {c : Char} (h : c ∈ Nat.toDigits 10 n) : c.isDigit = true :=
  Nat.isDigit_of_mem_toDigits (by decide) le_rfl h

lemma toDigits_ne_nil (n : Nat) : Nat.toDigits 10 n ≠ [] := by
  rw [Nat.toDigits_eq_if (by decide)]
  split
  · exact List.cons_ne_nil _ _
  · exact List.append_ne_nil_of_right_ne_nil _ (List.cons_ne_nil _ _)

/-- Digits have no leading zeros. -/
lemma eq_zero_of_head?_toDigits {n : Nat} (h : (Nat.toDigits 10 n).head? = some '0') : n = 0 := by
  induction n using Nat.strong_induction_on with
  | _ n ih =>
    rw [Nat.toDigits_eq_if (by decide)] at h
    split at h
    next hlt =>
      have hdigit : ∀ d < 10, [Nat.digitChar d].head? = some '0' → d = 0 := by decide
      exact hdigit n hlt h
    next hle =>
      rw [List.head?_append_of_ne_nil _ (toDigits_ne_nil _)] at h
      have hzero := ih (n / 10) (by omega) h
      omega

lemma scanFraction_of_apart {rest : List Char} (h : Apart rest) :
    scanFraction rest = some (none, rest) := by
  unfold scanFraction
  split
  next r => exact absurd rfl (h '.' rfl).2.1
  next => rfl

lemma scanExponent_of_apart {rest : List Char} (h : Apart rest) :
    scanExponent rest = some (none, rest) := by
  cases rest with
  | nil => rfl
  | cons c rest =>
    obtain ⟨-, -, he, hE⟩ := h c rfl
    have hmark : (c == 'e' || c == 'E') = false := by simp [he, hE]
    unfold scanExponent
    simp only [hmark, Bool.false_eq_true, if_false]

/-- The digits of a number, with its sign apart. -/
lemma scanUnsigned_toDigits {isNegative : Bool} {n : Nat} (hn : isNegative = true → n ≠ 0)
    {rest : List Char} (hrest : Apart rest) :
    scanUnsigned isNegative (Nat.toDigits 10 n ++ rest) =
      some (.integer (if isNegative then -(n : Int) else n), rest) := by
  have hne : ¬(Nat.toDigits 10 n).isEmpty = true := by
    rw [List.isEmpty_iff]
    exact toDigits_ne_nil n
  have hlead : ¬((Nat.toDigits 10 n).head? = some '0' &&
      decide (1 < (Nat.toDigits 10 n).length)) = true := by
    rw [Bool.and_eq_true, decide_eq_true_eq, decide_eq_true_eq]
    rintro ⟨hzero, hlength⟩
    rw [eq_zero_of_head?_toDigits hzero] at hlength
    exact absurd hlength (by decide)
  have hzero : ¬(isNegative && n == 0) = true := by
    rw [Bool.and_eq_true, beq_iff_eq]
    exact fun h => hn h.1 h.2
  rw [scanUnsigned, takeDigits_append (fun c hc => isDigit_of_mem_toDigits hc) hrest]
  simp only
  rw [if_neg hne, if_neg hlead, digitsValue_toDigits, scanFraction_of_apart hrest,
    Option.bind_eq_bind, Option.bind_some, scanExponent_of_apart hrest, Option.bind_eq_bind,
    Option.bind_some]
  simp only
  rw [if_neg hzero]

/-- An integer is written with its sign in front of its digits. -/
lemma toList_toString_int (i : Int) :
    (toString i).toList = (if i < 0 then ['-'] else []) ++ Nat.toDigits 10 i.natAbs := by
  rw [Int.toString_eq_repr]
  cases i with
  | ofNat n =>
    have hsign : ¬Int.ofNat n < 0 := by simp
    rw [if_neg hsign]
    exact Nat.toList_repr
  | negSucc n =>
    rw [if_pos (Int.negSucc_lt_zero n)]
    change ("-" ++ (n + 1).repr).toList = _
    rw [String.toList_append, Nat.toList_repr]
    rfl

lemma scanNumber_toString (i : Int) {rest : List Char} (hrest : Apart rest) :
    scanNumber ((toString i).toList ++ rest) = some (.integer i, rest) := by
  rw [toList_toString_int]
  by_cases hsign : i < 0
  · rw [if_pos hsign]
    have hscan : scanUnsigned true (Nat.toDigits 10 i.natAbs ++ rest) = some (_, rest) :=
      scanUnsigned_toDigits (fun _ => by omega) hrest
    rw [List.cons_append, List.nil_append, List.cons_append, scanNumber, hscan, if_pos rfl]
    congr 3
    omega
  · rw [if_neg hsign, List.nil_append]
    have hscan : scanUnsigned false (Nat.toDigits 10 i.natAbs ++ rest) = some (_, rest) :=
      scanUnsigned_toDigits (fun h => by cases h) hrest
    unfold scanNumber
    split
    next r hr =>
      obtain ⟨c, cs, hcons⟩ := List.exists_cons_of_ne_nil (toDigits_ne_nil i.natAbs)
      have hc : c.isDigit = true := isDigit_of_mem_toDigits (hcons ▸ List.mem_cons_self)
      rw [hcons] at hr
      rw [(List.cons.inj hr).1] at hc
      exact absurd hc (by decide)
    next =>
      rw [hscan]
      congr 3
      simp only [Bool.false_eq_true, if_false]
      omega

/-! ## Strings -/

/-- A character is read back from its escape. -/
lemma scanString_escapeChar (c : Char) (seen : List Item) (rest : List Char) :
    scanString seen (escapeChar c ++ rest) = scanString (.whole c :: seen) rest := by
  unfold escapeChar
  split
  next h => simp [h, scanString, shortEscape]
  next hquote =>
  split
  next h => simp [h, scanString, shortEscape]
  next hslash =>
  split
  next h => simp [h, scanString, shortEscape]
  next =>
  split
  next h => simp [h, scanString, shortEscape]
  next =>
  split
  next h => simp [h, scanString, shortEscape]
  next =>
  split
  next h => simp [h, scanString, shortEscape]
  next =>
  split
  next h => simp [h, scanString, shortEscape]
  next =>
  split
  next hcontrol =>
    have hunit : ∀ n < 0x20, hexUnit '0' '0' (hexDigit (n / 16)) (hexDigit (n % 16)) = some n := by
      decide
    have hitem : Item.ofUnit c.toNat = .whole c := by
      rw [Item.ofUnit, if_neg (by omega), if_neg (by omega), Char.ofNat_toNat]
    rw [List.cons_append, List.cons_append, List.cons_append, List.cons_append, List.cons_append,
      List.cons_append, List.nil_append, scanString, hunit _ hcontrol]
    simp only
    rw [hitem]
  next hplain =>
    rw [List.cons_append, List.nil_append, scanString.eq_def]
    split <;> simp_all

lemma scanString_escapes (cs rest : List Char) (seen : List Item) :
    scanString seen (cs.flatMap escapeChar ++ '"' :: rest) =
      some (seen.reverse ++ cs.map .whole, rest) := by
  induction cs generalizing seen with
  | nil => rw [List.flatMap_nil, List.nil_append, List.map_nil, List.append_nil, scanString]
  | cons c cs ih =>
    rw [List.flatMap_cons, List.append_assoc, scanString_escapeChar, ih, List.reverse_cons,
      List.append_assoc, List.map_cons]
    rfl

lemma toText_whole (cs : List Char) : Item.toText (cs.map .whole) = some cs := by
  induction cs with
  | nil => rfl
  | cons c cs ih =>
    rw [List.map_cons, Item.toText, ih]
    rfl

/-! ## Tokens of texts -/

/-- The scanner finds the tokens in the text, if what comes behind the text is as is asked for. -/
def Lexes (follow : List Char → Prop) (text : List Char) (tokens : List Token) : Prop :=
  ∃ steps ≤ text.length, ∀ fuel seen rest, follow rest →
    scanAll (fuel + steps) seen (text ++ rest) = scanAll fuel (tokens.reverse ++ seen) rest

/-- Anything may come behind a text. -/
abbrev Anything : List Char → Prop := fun _ => True

variable {follow follow' : List Char → Prop} {text text' : List Char} {tokens tokens' : List Token}

/-- Whatever may come behind a text, what is as it asks for may. -/
lemma Lexes.weaken (h : Lexes Anything text tokens) : Lexes follow text tokens := by
  obtain ⟨steps, hsteps, hscan⟩ := h
  exact ⟨steps, hsteps, fun fuel seen rest _ => hscan fuel seen rest trivial⟩

/-- One text behind another one. -/
lemma Lexes.append (h : Lexes follow text tokens) (h' : Lexes follow' text' tokens')
    (hfollow : ∀ rest, follow' rest → follow (text' ++ rest)) :
    Lexes follow' (text ++ text') (tokens ++ tokens') := by
  obtain ⟨steps, hsteps, hscan⟩ := h
  obtain ⟨steps', hsteps', hscan'⟩ := h'
  refine ⟨steps' + steps, ?_, fun fuel seen rest hrest => ?_⟩
  · rw [List.length_append]
    omega
  · rw [List.append_assoc, ← Nat.add_assoc, hscan _ _ _ (hfollow rest hrest), hscan' _ _ _ hrest,
      List.reverse_append, List.append_assoc]

/-- A text behind one that ends by itself. -/
lemma Lexes.andThen (h : Lexes Anything text tokens) (h' : Lexes follow text' tokens') :
    Lexes follow (text ++ text') (tokens ++ tokens') :=
  h.append h' fun _ _ => trivial

/-- One token. -/
lemma Lexes.of_scan {c : Char} {cs : List Char} {t : Token} (hblank : isBlank c = false)
    (h : ∀ rest, follow rest → scan (c :: (cs ++ rest)) = some (t, rest)) :
    Lexes follow (c :: cs) [t] := by
  refine ⟨1, by simp, fun fuel seen rest hrest => ?_⟩
  rw [List.cons_append, scanAll, hblank, h rest hrest]
  rfl

/-- Blanks. -/
lemma Lexes.blanks (h : ∀ c ∈ text, isBlank c = true) : Lexes Anything text [] := by
  refine ⟨text.length, le_rfl, fun fuel seen rest _ => ?_⟩
  induction text with
  | nil => rfl
  | cons c text ih =>
    rw [List.cons_append, List.length_cons, ← Nat.add_assoc, scanAll, if_pos (h c List.mem_cons_self)]
    exact ih fun c hc => h c (List.mem_cons_of_mem _ hc)

/-- The tokens of a whole text. -/
lemma Lexes.ofText (h : Lexes Apart text tokens) : ofText text = some tokens := by
  obtain ⟨steps, hsteps, hscan⟩ := h
  have hall := hscan (text.length - steps) [] [] (by rintro c ⟨⟩)
  rw [Nat.sub_add_cancel hsteps, List.append_nil, List.append_nil] at hall
  rw [Token.ofText, hall]
  unfold scanAll
  rw [List.reverse_reverse]

/-- What starts with a digit or a sign is scanned as a number. -/
lemma scan_of_number {c : Char} (hc : c = '-' ∨ c.isDigit = true) (r : List Char) :
    scan (c :: r) = (scanNumber (c :: r)).map fun p => (.number p.1, p.2) := by
  have hne : ∀ d ∈ ['{', '}', '[', ']', ',', ':', 'n', 't', 'f', '"'], c ≠ d := by
    have hother : ['{', '}', '[', ']', ',', ':', 'n', 't', 'f', '"'].all
        (fun d => !(d == '-' || d.isDigit)) = true := by decide
    rintro d hd rfl
    have hneither := List.all_eq_true.1 hother c hd
    rw [Bool.not_eq_true', Bool.or_eq_false_iff] at hneither
    exact hc.elim (ne_of_beq_false hneither.1) (Bool.eq_false_iff.1 hneither.2)
  simp only [List.forall_mem_cons] at hne
  obtain ⟨h₁, h₂, h₃, h₄, h₅, h₆, h₇, h₈, h₉, h₁₀, -⟩ := hne
  unfold scan
  split
  all_goals first
    | exact absurd (List.cons.inj ‹_ = _›).1 ‹_›
    | skip
  cases scanNumber (c :: r) <;> rfl

lemma lexes_int (i : Int) : Lexes Apart (toString i).toList [.number (.integer i)] := by
  obtain ⟨c, cs, hcons, hc⟩ : ∃ c cs, (toString i).toList = c :: cs ∧
      (c = '-' ∨ c.isDigit = true) := by
    rw [toList_toString_int]
    split
    · exact ⟨'-', _, rfl, .inl rfl⟩
    · obtain ⟨c, cs, hcons⟩ := List.exists_cons_of_ne_nil (toDigits_ne_nil i.natAbs)
      exact ⟨c, cs, hcons, .inr (isDigit_of_mem_toDigits (hcons ▸ List.mem_cons_self))⟩
  have hblank : isBlank c = false := by
    by_contra hblank
    simp only [isBlank, Bool.not_eq_false, Bool.or_eq_true, beq_iff_eq] at hblank
    rcases hblank with ((rfl | rfl) | rfl) | rfl <;> exact absurd hc (by decide)
  rw [hcons]
  refine .of_scan hblank fun rest hrest => ?_
  have hnumber := scanNumber_toString i hrest
  rw [hcons, List.cons_append] at hnumber
  rw [scan_of_number hc, hnumber]
  rfl

/-- A string literal denotes its text. -/
lemma lexes_quote (s : String) : Lexes Anything (quote s).toList [.text (some s)] := by
  rw [quote, String.toList_ofList, List.append_assoc, List.singleton_append]
  refine .of_scan rfl fun rest _ => ?_
  rw [scan, List.append_assoc, List.singleton_append, scanString_escapes]
  simp [toText_whole]

lemma toList_newline (level : Nat) :
    (newline level).toList = '\n' :: List.replicate (2 * level) ' ' := by
  rw [newline, String.toList_append, String.toList_ofList, String.toList_ofList]
  rfl

lemma lexes_newline (level : Nat) : Lexes Anything (newline level).toList [] := by
  rw [toList_newline]
  refine .blanks fun c hc => ?_
  rcases List.mem_cons.1 hc with rfl | hc
  · rfl
  · rw [List.eq_of_mem_replicate hc]
    rfl

lemma apart_newline (level : Nat) (rest : List Char) : Apart ((newline level).toList ++ rest) := by
  rw [toList_newline]
  rintro c ⟨⟩
  exact ⟨rfl, by decide, by decide, by decide⟩

lemma lexes_comma (level : Nat) : Lexes Anything ("," ++ newline level).toList [.comma] := by
  have hcomma : Lexes Anything [','] [.comma] := .of_scan rfl fun _ _ => rfl
  rw [String.toList_append]
  exact hcomma.andThen (lexes_newline level)

lemma apart_comma (level : Nat) (rest : List Char) : Apart (("," ++ newline level).toList ++ rest) := by
  rw [String.toList_append]
  rintro c ⟨⟩
  exact ⟨rfl, by decide, by decide, by decide⟩

lemma lexes_colon : Lexes Anything ": ".toList [.colon] := by
  have hcolon : Lexes Anything [':'] [.colon] := .of_scan rfl fun _ _ => rfl
  have hblank : Lexes Anything [' '] [] := .blanks (List.forall_mem_singleton.2 rfl)
  exact hcolon.andThen hblank

/-- Parts with separators between them. -/
lemma lexes_intercalate (level : Nat) {parts : List String} {tokens : List (List Token)}
    (h : List.Forall₂ (fun part ts => Lexes Apart part.toList ts) parts tokens) (hne : parts ≠ []) :
    Lexes Apart (("," ++ newline level).intercalate parts).toList ([.comma].intercalate tokens) := by
  rw [String.toList_intercalate]
  induction h with
  | nil => exact absurd rfl hne
  | cons hfirst hrest ih =>
    cases hrest with
    | nil => simpa using hfirst
    | cons hsecond hrest =>
      have hbehind := (lexes_comma level).andThen (ih (List.cons_ne_nil _ _))
      rw [List.map_cons, List.map_cons, List.intercalate_cons_cons, List.intercalate_cons_cons]
      rw [List.append_assoc, List.append_assoc]
      refine hfirst.append hbehind fun rest _ => ?_
      rw [List.append_assoc]
      exact apart_comma level _

/-- Parts between brackets. -/
lemma lexes_block {opening closing : String} {left right : Token} (level : Nat)
    (hopening : Lexes Anything opening.toList [left])
    (hclosing : Lexes Anything closing.toList [right]) {parts : List String}
    {tokens : List (List Token)}
    (h : List.Forall₂ (fun part ts => Lexes Apart part.toList ts) parts tokens) :
    Lexes Anything (block opening closing level parts).toList
      (left :: ([.comma].intercalate tokens ++ [right])) := by
  unfold block
  split
  next hempty =>
    rw [List.isEmpty_iff] at hempty
    subst hempty
    cases h
    rw [String.toList_append]
    exact hopening.andThen hclosing
  next hempty =>
    have hne : parts ≠ [] := fun hnil => hempty (by rw [hnil]; rfl)
    have hend := (lexes_newline level).andThen hclosing
    have hparts := (lexes_intercalate (level + 1) h hne).append hend fun rest _ => by
      rw [List.append_assoc]
      exact apart_newline level _
    have hall := hopening.andThen ((lexes_newline (level + 1)).andThen hparts)
    simpa only [String.toList_append, List.append_assoc, List.singleton_append, List.nil_append]
      using hall

end Token

open Token

/-! ## Values -/

/-- Numbers are integers, and strings denote texts. -/
inductive Spelled : Json → Prop where
  | null : Spelled .null
  | bool (b : Bool) : Spelled (.bool b)
  | integer (i : Int) : Spelled (.number (.integer i))
  | text (s : String) : Spelled (.text (some s))
  | array {items : List Json} (hitems : ∀ v ∈ items, Spelled v) : Spelled (.array items)
  | object {members : List (Option String × Json)} (hnames : ∀ m ∈ members, m.1.isSome)
      (hvalues : ∀ m ∈ members, Spelled m.2) : Spelled (.object members)

mutual

/-- The tokens of a value. -/
def tokens : Json → List Token
  | .null => [.null]
  | .bool b => [.bool b]
  | .number n => [.number n]
  | .text t => [.text t]
  | .array items => .openBracket :: ([Token.comma].intercalate (itemTokens items) ++ [.closeBracket])
  | .object members =>
    .openBrace :: ([Token.comma].intercalate (memberTokens members) ++ [.closeBrace])

/-- The tokens of each item of an array. -/
def itemTokens : List Json → List (List Token)
  | [] => []
  | v :: vs => tokens v :: itemTokens vs

/-- The tokens of each member of an object. -/
def memberTokens : List (Option String × Json) → List (List Token)
  | [] => []
  | (k, v) :: ms => (.text k :: .colon :: tokens v) :: memberTokens ms

end

/-- The tokens of items stand in their texts. -/
lemma lexes_items {items : List Json} {level : Nat}
    (h : ∀ v ∈ items, Lexes Apart (v.pretty level).toList v.tokens) :
    List.Forall₂ (fun part ts => Lexes Apart part.toList ts) (prettyItems level items)
      (itemTokens items) := by
  induction items with
  | nil => exact .nil
  | cons v vs ih =>
    exact .cons (h v List.mem_cons_self) (ih fun w hw => h w (List.mem_cons_of_mem _ hw))

/-- The tokens of members stand in their texts. -/
lemma lexes_members {members : List (Option String × Json)} {level : Nat}
    (hnames : ∀ m ∈ members, m.1.isSome)
    (h : ∀ m ∈ members, Lexes Apart (m.2.pretty level).toList m.2.tokens) :
    List.Forall₂ (fun part ts => Lexes Apart part.toList ts) (prettyMembers level members)
      (memberTokens members) := by
  induction members with
  | nil => exact .nil
  | cons m ms ih =>
    obtain ⟨name, v⟩ := m
    obtain ⟨name, rfl⟩ := Option.isSome_iff_exists.1 (hnames _ List.mem_cons_self)
    refine .cons ?_ (ih (fun m hm => hnames m (List.mem_cons_of_mem _ hm))
      fun m hm => h m (List.mem_cons_of_mem _ hm))
    have hvalue : Lexes Apart (v.pretty level).toList v.tokens := h (some name, v) List.mem_cons_self
    have hmember := (lexes_quote name).andThen (lexes_colon.andThen hvalue)
    rw [String.toList_append, String.toList_append, List.append_assoc]
    exact hmember

/-- **The tokens of a value stand in its text.** -/
lemma Spelled.lexes {j : Json} (h : j.Spelled) (level : Nat) :
    Lexes Apart (j.pretty level).toList j.tokens := by
  have hbrackets : Lexes Anything "[".toList [.openBracket] ∧
      Lexes Anything "]".toList [.closeBracket] := by
    constructor
    · change Lexes Anything ['['] _
      exact .of_scan rfl fun _ _ => rfl
    · change Lexes Anything [']'] _
      exact .of_scan rfl fun _ _ => rfl
  have hbraces : Lexes Anything "\x7b".toList [.openBrace] ∧
      Lexes Anything "\x7d".toList [.closeBrace] := by
    constructor
    · change Lexes Anything ['\x7b'] _
      exact .of_scan rfl fun _ _ => rfl
    · change Lexes Anything ['\x7d'] _
      exact .of_scan rfl fun _ _ => rfl
  induction h generalizing level with
  | null =>
    rw [pretty, tokens]
    change Lexes Apart ['n', 'u', 'l', 'l'] [.null]
    exact .of_scan rfl fun _ _ => rfl
  | bool b =>
    cases b with
    | false =>
      rw [pretty, tokens]
      change Lexes Apart ['f', 'a', 'l', 's', 'e'] [.bool false]
      exact .of_scan rfl fun _ _ => rfl
    | true =>
      rw [pretty, tokens]
      change Lexes Apart ['t', 'r', 'u', 'e'] [.bool true]
      exact .of_scan rfl fun _ _ => rfl
  | integer i => exact lexes_int i
  | text s => exact (lexes_quote s).weaken
  | array _ ih =>
    rw [pretty, tokens]
    exact (lexes_block level hbrackets.1 hbrackets.2
      (lexes_items fun v hv => ih v hv (level + 1))).weaken
  | object hnames _ ih =>
    rw [pretty, tokens]
    exact (lexes_block level hbraces.1 hbraces.2
      (lexes_members hnames fun m hm => ih m hm (level + 1))).weaken

/-- The reader makes the value of its tokens, given as much fuel as there are tokens. -/
def Reads (j : Json) : Prop :=
  ∀ fuel rest, j.tokens.length ≤ fuel → readValue fuel (j.tokens ++ rest) = some (j, rest)

/-- A value does not start with a closing bracket. -/
lemma exists_tokens_eq_cons (j : Json) : ∃ t ts, j.tokens = t :: ts ∧ t ≠ .closeBracket := by
  cases j <;> exact ⟨_, _, rfl, by simp⟩

lemma exists_intercalate_eq_cons (sep ts : List Token) (t : Token) (rest : List (List Token)) :
    ∃ more, sep.intercalate ((t :: ts) :: rest) = t :: more := by
  cases rest with
  | nil => exact ⟨ts, List.intercalate_singleton⟩
  | cons _ _ => exact ⟨_, List.intercalate_cons_cons⟩

lemma readValue_openBracket {t : Token} {ts : List Token} (ht : t ≠ .closeBracket) (fuel : Nat) :
    readValue (fuel + 1) (.openBracket :: t :: ts) =
      (readItems fuel (t :: ts)).map fun p => (.array p.1, p.2) := by
  have hne : ∀ r, t :: ts ≠ .closeBracket :: r := fun r h => ht (List.cons.inj h).1
  rw [readValue]
  · cases readItems fuel (t :: ts) <;> rfl
  · exact hne

lemma readValue_openBrace {t : Token} {ts : List Token} (ht : t ≠ .closeBrace) (fuel : Nat) :
    readValue (fuel + 1) (.openBrace :: t :: ts) =
      (readMembers fuel (t :: ts)).map fun p => (.object p.1, p.2) := by
  have hne : ∀ r, t :: ts ≠ .closeBrace :: r := fun r h => ht (List.cons.inj h).1
  rw [readValue]
  · cases readMembers fuel (t :: ts) <;> rfl
  · exact hne

/-- The items of an array. -/
lemma readItems_tokens {items : List Json} (h : ∀ v ∈ items, v.Reads) (hne : items ≠ []) {fuel : Nat}
    {rest : List Token}
    (hfuel : ([Token.comma].intercalate (itemTokens items)).length < fuel) :
    readItems fuel ([Token.comma].intercalate (itemTokens items) ++ .closeBracket :: rest) =
      some (items, rest) := by
  induction items generalizing fuel with
  | nil => exact absurd rfl hne
  | cons v vs ih =>
    obtain ⟨fuel, rfl⟩ := Nat.exists_eq_succ_of_ne_zero (Nat.ne_zero_of_lt hfuel)
    have hv := h v List.mem_cons_self
    cases vs with
    | nil =>
      rw [itemTokens, itemTokens, List.intercalate_singleton] at hfuel ⊢
      rw [Nat.succ_eq_add_one, readItems, hv fuel _ (by omega)]
    | cons w vs =>
      rw [itemTokens, itemTokens, List.intercalate_cons_cons, ← itemTokens] at hfuel ⊢
      rw [List.length_append, List.length_append, List.length_singleton] at hfuel
      rw [Nat.succ_eq_add_one, List.append_assoc, List.append_assoc, readItems,
        hv fuel _ (by omega), List.singleton_append]
      simp only
      rw [ih (fun u hu => h u (List.mem_cons_of_mem _ hu)) (List.cons_ne_nil _ _) (by omega)]

/-- The members of an object. -/
lemma readMembers_tokens {members : List (Option String × Json)} (h : ∀ m ∈ members, m.2.Reads)
    (hne : members ≠ []) {fuel : Nat} {rest : List Token}
    (hfuel : ([Token.comma].intercalate (memberTokens members)).length < fuel) :
    readMembers fuel ([Token.comma].intercalate (memberTokens members) ++ .closeBrace :: rest) =
      some (members, rest) := by
  induction members generalizing fuel with
  | nil => exact absurd rfl hne
  | cons m ms ih =>
    obtain ⟨name, v⟩ := m
    obtain ⟨fuel, rfl⟩ := Nat.exists_eq_succ_of_ne_zero (Nat.ne_zero_of_lt hfuel)
    have hv : v.Reads := h (name, v) List.mem_cons_self
    cases ms with
    | nil =>
      rw [memberTokens, memberTokens, List.intercalate_singleton] at hfuel ⊢
      rw [List.length_cons, List.length_cons] at hfuel
      rw [Nat.succ_eq_add_one, List.cons_append, List.cons_append, readMembers, hv fuel _ (by omega)]
    | cons m ms =>
      obtain ⟨name', v'⟩ := m
      rw [memberTokens, memberTokens, List.intercalate_cons_cons, ← memberTokens] at hfuel ⊢
      rw [List.length_append, List.length_append, List.length_singleton, List.length_cons,
        List.length_cons] at hfuel
      rw [Nat.succ_eq_add_one, List.append_assoc, List.append_assoc, List.cons_append,
        List.cons_append, readMembers, hv fuel _ (by omega), List.singleton_append]
      simp only
      rw [ih (fun u hu => h u (List.mem_cons_of_mem _ hu)) (List.cons_ne_nil _ _) (by omega)]

/-- **The tokens of a value are read as the value.** -/
lemma Spelled.reads {j : Json} (h : j.Spelled) : j.Reads := by
  induction h with
  | @array items _ ih =>
    intro fuel rest hfuel
    obtain ⟨fuel, rfl⟩ := Nat.exists_eq_succ_of_ne_zero (Nat.ne_zero_of_lt hfuel)
    cases items with
    | nil => rfl
    | cons v vs =>
      rw [tokens, List.length_cons, List.length_append, List.length_singleton] at hfuel
      have hitems : readItems fuel (_ ++ .closeBracket :: rest) = some (v :: vs, rest) :=
        readItems_tokens ih (List.cons_ne_nil _ _) (by omega)
      obtain ⟨t, ts, hv, ht⟩ := v.exists_tokens_eq_cons
      obtain ⟨more, hmore⟩ := exists_intercalate_eq_cons [.comma] ts t (itemTokens vs)
      rw [itemTokens, hv, hmore, List.cons_append] at hitems
      rw [tokens, itemTokens, hv, hmore, List.cons_append, List.cons_append, List.cons_append,
        List.append_assoc, List.singleton_append, readValue_openBracket ht, hitems]
      rfl
  | @object members _ _ ih =>
    intro fuel rest hfuel
    obtain ⟨fuel, rfl⟩ := Nat.exists_eq_succ_of_ne_zero (Nat.ne_zero_of_lt hfuel)
    cases members with
    | nil => rfl
    | cons m ms =>
      obtain ⟨name, v⟩ := m
      rw [tokens, List.length_cons, List.length_append, List.length_singleton] at hfuel
      have hmembers : readMembers fuel (_ ++ .closeBrace :: rest) = some ((name, v) :: ms, rest) :=
        readMembers_tokens ih (List.cons_ne_nil _ _) (by omega)
      obtain ⟨more, hmore⟩ :=
        exists_intercalate_eq_cons [.comma] (.colon :: v.tokens) (.text name) (memberTokens ms)
      rw [memberTokens, hmore, List.cons_append] at hmembers
      rw [tokens, memberTokens, hmore, List.cons_append, List.cons_append, List.cons_append,
        List.append_assoc, List.singleton_append, readValue_openBrace (by simp), hmembers]
      rfl
  | _ =>
    intro fuel rest hfuel
    obtain ⟨fuel, rfl⟩ := Nat.exists_eq_succ_of_ne_zero (Nat.ne_zero_of_lt hfuel)
    rfl

/-- **What was written is read back.** -/
theorem Spelled.parse_pretty {j : Json} (h : j.Spelled) (level : Nat) :
    parse (j.pretty level) = some j := by
  have hread := h.reads (j.tokens.length + 1) [] (Nat.le_succ _)
  rw [List.append_nil] at hread
  rw [parse, (h.lexes level).ofText, Option.bind_eq_bind, Option.bind_some, hread]

end SceneShading.Json
