import SceneShading.Source.SymbolPool
import SceneShading.Text.Blank
import SceneShading.Text.Order

/-!
# Sets of preprocessor definitions

A set holds at most one value per name. It is a list of pairs of symbols, sorted by the symbol of
the name, so that two sets over one pool are equal exactly when they give every name the same
value. Only the lines that a set prints show the texts, and they are sorted by text, whatever the
symbols are.
-/

namespace SceneShading

/-- Values of names, sorted by the symbol of the name. -/
structure MacroSet where
  entries : List (Symbol × Symbol)
deriving Repr, DecidableEq, Inhabited

/-- The line that defines a name; an empty value leaves no blank behind the name. -/
def defineLine (name value : String) : String :=
  if value.isEmpty then "#define " ++ name else "#define " ++ name ++ " " ++ value

/-- The name and the value of a definition line; blanks inside the value become single spaces. -/
def parseDefineLine (line : String) : Option (String × String) :=
  match Text.words line with
  | "#define" :: name :: value => some (name, " ".intercalate value)
  | _ => none

namespace MacroSet

/-- The set without definitions. -/
def empty : MacroSet := ⟨[]⟩

/-- A sorted list with the value of a name set. -/
def setEntry (name value : Symbol) : List (Symbol × Symbol) → List (Symbol × Symbol)
  | [] => [(name, value)]
  | e :: r =>
    if name.index < e.1.index then (name, value) :: e :: r
    else if name = e.1 then (name, value) :: r
    else e :: setEntry name value r

/-- The set with the value of a symbol set. -/
def setSymbol (d : MacroSet) (name value : Symbol) : MacroSet := ⟨setEntry name value d.entries⟩

/-- The value of a symbol. -/
def getSymbol? (d : MacroSet) (name : Symbol) : Option Symbol :=
  (d.entries.find? (·.1 = name)).map (·.2)

/-- The name is defined. -/
def containsSymbol (d : MacroSet) (name : Symbol) : Bool := d.entries.any (·.1 = name)

/-- The set with the value of a name set, and the pool that has met both texts. -/
def set (pool : SymbolPool) (d : MacroSet) (name value : String) : SymbolPool × MacroSet :=
  let (pool, n) := pool.intern name
  let (pool, v) := pool.intern value
  (pool, d.setSymbol n v)

/-- The set after a definition line; any other line changes nothing and is reported as `false`. -/
def pushLine (pool : SymbolPool) (d : MacroSet) (line : String) : SymbolPool × MacroSet × Bool :=
  match parseDefineLine line with
  | some (name, value) =>
    let (pool, d) := d.set pool name value
    (pool, d, true)
  | none => (pool, d, false)

/-- The set of the definition lines of a list, where the last line of a name wins. -/
def ofLines (pool : SymbolPool) (lines : List String) : SymbolPool × MacroSet :=
  lines.foldl (fun (pool, d) line => let (pool, d, _) := pushLine pool d line; (pool, d))
    (pool, empty)

/-- The set without a name, and whether the name was in it. -/
def remove (pool : SymbolPool) (d : MacroSet) (name : String) : MacroSet × Bool :=
  match pool.get? name with
  | some n => (⟨d.entries.filter (·.1 ≠ n)⟩, d.containsSymbol n)
  | none => (d, false)

/-- The name is defined. -/
def contains (pool : SymbolPool) (d : MacroSet) (name : String) : Bool :=
  (pool.get? name).any d.containsSymbol

/-- The value of a name. -/
def get? (pool : SymbolPool) (d : MacroSet) (name : String) : Option String := do
  let n ← pool.get? name
  let v ← d.getSymbol? n
  return pool.resolve v

/-- The set with all definitions of another set, which win. -/
def merge (d other : MacroSet) : MacroSet :=
  other.entries.foldl (fun d e => d.setSymbol e.1 e.2) d

/-- The number of names. -/
def size (d : MacroSet) : Nat := d.entries.length

/-- The definition lines, sorted by text. -/
def lines (pool : SymbolPool) (d : MacroSet) : List String :=
  Text.sort (d.entries.map fun e => defineLine (pool.resolve e.1) (pool.resolve e.2))

end MacroSet

end SceneShading
