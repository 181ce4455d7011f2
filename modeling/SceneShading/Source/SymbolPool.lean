/-!
# Symbols

A pool numbers texts in the order in which they are first met. A symbol is such a number, and equal
symbols of one pool stand for equal texts, so that sets of names can be kept sorted by number.
-/

namespace SceneShading

/-- The number of a text in a pool. -/
structure Symbol where
  index : Nat
deriving Repr, DecidableEq, Inhabited

/-- The texts met so far, each once, in the order of their symbols. -/
structure SymbolPool where
  texts : List String
  texts_nodup : texts.Nodup := by decide
deriving Repr

namespace SymbolPool

/-- The pool that has met no text. -/
def empty : SymbolPool := ⟨[], List.nodup_nil⟩

instance : Inhabited SymbolPool := ⟨empty⟩

/-- The symbol of a text that was met. -/
def get? (pool : SymbolPool) (text : String) : Option Symbol :=
  (pool.texts.findIdx? (· == text)).map Symbol.mk

/-- The text of a symbol. -/
def resolve? (pool : SymbolPool) (s : Symbol) : Option String := pool.texts[s.index]?

/-- The text of a symbol; symbols that the pool did not issue have the empty text. -/
def resolve (pool : SymbolPool) (s : Symbol) : String := (pool.resolve? s).getD ""

theorem get?_eq_none_iff {pool : SymbolPool} {text : String} :
    pool.get? text = none ↔ text ∉ pool.texts := by
  simp only [get?, Option.map_eq_none_iff, List.findIdx?_eq_none_iff, beq_eq_false_iff_ne]
  exact ⟨fun h hm => h _ hm rfl, fun h x hx hxt => h (hxt ▸ hx)⟩

/-- The pool after meeting a text. -/
def insert (pool : SymbolPool) (text : String) : SymbolPool :=
  if h : text ∈ pool.texts then pool
  else ⟨pool.texts ++ [text], by
    refine List.nodup_append.2 ⟨pool.texts_nodup, by simp, ?_⟩
    intro a ha b hb
    simp only [List.mem_singleton] at hb
    rintro rfl
    exact h (hb ▸ ha)⟩

/-- The symbol of a text, and the pool that has met it. -/
def intern (pool : SymbolPool) (text : String) : SymbolPool × Symbol :=
  let pool := pool.insert text
  (pool, (pool.get? text).getD ⟨pool.texts.length⟩)

/-- The pool that has met the texts, in order. -/
def ofTexts (texts : List String) : SymbolPool := texts.foldl insert empty

/-- The names and values that the node library defines. -/
def common : SymbolPool := ofTexts
  ["SHADER_NAME", "_NONE", "_PCF", "_ESM", "_VSM", "_EVSM", "_FAKE_PCF", "_POISSON_PCF",
   "_BAND_PCF", "_TAP_PCF", "_FLOATTEX", "_FLOATLINEAR", "_ROTATE_OFFSET", "1"]

theorem mem_insert {pool : SymbolPool} {text t : String} :
    t ∈ (pool.insert text).texts ↔ t ∈ pool.texts ∨ t = text := by
  unfold insert
  split
  · rename_i h
    constructor
    · exact Or.inl
    · rintro (h' | rfl)
      · exact h'
      · exact h
  · simp

end SymbolPool

end SceneShading
