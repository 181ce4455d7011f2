import SceneShading.Notice
import SceneShading.Settings
import SceneShading.Source.Include
import SceneShading.Source.MacroSet
import SceneShading.Source.Skeleton

/-!
# From a body to a source

The body of a program becomes a complete source in two steps: its includes are resolved, and the
result is wrapped in the skeleton together with the version, the extensions, the definitions and,
unless the body declares one, a default precision. Extensions and definitions are written in the
order of their texts, so that the source does not depend on the order in which they were collected.
A skeleton that cannot be rendered leaves the bare body.
-/

namespace SceneShading.Source

/-- A source and what happened on the way to it. -/
structure Processed where
  source : String
  diagnostics : List Diagnostic := []
  journal : List Notice := []
deriving Repr, Inhabited

/-- The name of the skeleton in the library. -/
def skeletonFile : String := "program.glsl"

/-- Three words that declare a precision of floating point numbers. -/
def isPrecision (a b c : String) : Bool :=
  a == "precision" && (b == "highp" || b == "mediump" || b == "lowp") && c == "float"

/-- Three words in a row declare a precision. -/
def hasPrecision : List String → Bool
  | a :: b :: c :: r => isPrecision a b c || hasPrecision (b :: c :: r)
  | _ => false

/-- The source declares a precision of floating point numbers somewhere. -/
def declaresPrecision (source : String) : Bool :=
  hasPrecision (Text.tokens (fun c => Text.isBlank c || c == ';') source)

/-- The values that the skeleton can name. -/
def skeletonScope (settings : Settings) (extensions defines : List String) (body : String) :
    SkeletonScope :=
  [("version", .text settings.glslVersion),
   ("extensions", .list extensions),
   ("precision",
     if declaresPrecision body then .absent else .text settings.precision.declaration),
   ("defines", .list defines),
   ("body", .text body)]

/-- The body with its includes resolved, for the given definitions. The pool only numbers the names
while the set of definitions is built. -/
def expandBody (pool : SymbolPool) (lib : Library) (body : String) (defines : List String) :
    Expansion × List String :=
  let (pool, set) := MacroSet.ofLines pool defines
  (resolveIncludes lib (set.contains pool) body, set.lines pool)

/-- The body with its includes resolved, and the values that the skeleton is handed with it. -/
def prepare (pool : SymbolPool) (lib : Library) (settings : Settings) (body : String)
    (defines extensions : List String) : Expansion × SkeletonScope :=
  let (expansion, defines) := expandBody pool lib body defines
  (expansion, skeletonScope settings (Text.sortUnique extensions) defines expansion.text)

/-- The source of a body. -/
def process (pool : SymbolPool) (lib : Library) (settings : Settings) (body : String)
    (defines extensions : List String) : Processed :=
  let (expansion, scope) := prepare pool lib settings body defines extensions
  let diagnostics := expansion.missing.map Diagnostic.unresolvedInclude
  let journal := expansion.missing.map Notice.missingFile
  match renderSkeleton ((lib.text? skeletonFile).getD "") scope with
  | .ok source => { source, diagnostics, journal }
  | .error e =>
    { source := expansion.text, diagnostics := diagnostics ++ [.skeleton e],
      journal := journal ++ [.skeletonFailed] }

/-- A file that was asked for and is not in the library. -/
structure FileNotFound where
  name : String
deriving Repr, DecidableEq, Inhabited

/-- The wording of a missing file. -/
def FileNotFound.message (e : FileNotFound) : String := "Shader library file not found: " ++ e.name

/-- The source of a library file, processed like a body. -/
def processFile (pool : SymbolPool) (lib : Library) (settings : Settings) (name : String)
    (defines extensions : List String) : Except FileNotFound Processed :=
  match lib.text? name with
  | some text => .ok (process pool lib settings text defines extensions)
  | none => .error ⟨name⟩

end SceneShading.Source
