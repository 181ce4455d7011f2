import SceneShading.Source.Builtin
import SceneShading.Text.Blank

/-!
# Including library files

An include line names a file and, behind it, guards. It stands for the text of the file if it has
no guards or one of its guards is defined; every file is expanded at most once. Each expansion
marks a file that was not marked before, so that files that include one another in a circle are no
harm, and the number of files bounds the depth of expansion.
-/

namespace SceneShading

/-- The library of shader files: the built-in ones, and those that a renderer registers, which come
first. -/
structure Library where
  registered : List (String × String) := []
deriving Repr, DecidableEq, Inhabited

namespace Library

/-- Every file with its text; of two entries of a name the first counts. -/
def files (lib : Library) : List (String × String) := lib.registered ++ Source.Builtin.files

/-- The text of a file. -/
def text? (lib : Library) (name : String) : Option String := lib.files.lookup name

/-- The library with a file registered. -/
def add (lib : Library) (name text : String) : Library := ⟨(name, text) :: lib.registered⟩

theorem text?_add (lib : Library) (name text : String) : (lib.add name text).text? name = text := by
  simp [text?, add, files]

theorem text?_add_of_ne (lib : Library) {name other : String}
    (h : other ≠ name) (text : String) :
    (lib.add name text).text? other = lib.text? other := by
  simp [text?, add, files, List.lookup_cons, beq_false_of_ne h]

end Library

namespace Source

/-- An include line: the file and the guards. -/
structure Include where
  file : String
  guards : List String
deriving Repr, DecidableEq, Inhabited

namespace Include

/-- The mark that an include line starts with, after blanks. -/
def pragma : List Char := "#pragma include".toList

/-- The pieces at odd places, which is where quoted names stand between quotes. -/
def quoted : List (List Char) → List (List Char)
  | _ :: q :: r => q :: quoted r
  | _ => []

/-- The include that a line stands for. A line with the mark but without a quoted name is a line
like any other. -/
def ofLine? (line : List Char) : Option Include :=
  let line := Text.trimStart line
  if pragma.isPrefixOf line then
    match quoted (Text.split (· == '"') (line.drop pragma.length)) with
    | file :: guards => some ⟨String.ofList file, guards.map String.ofList⟩
    | [] => none
  else none

/-- The include takes part: it has no guards, or one of them is defined. -/
def holds (i : Include) (defined : String → Bool) : Bool := i.guards.isEmpty || i.guards.any defined

end Include

/-- The state of an expansion: the lines written, the files met and the ones that do not exist. -/
structure Expansion where
  lines : List (List Char) := []
  met : List String := []
  missing : List String := []
deriving Repr, DecidableEq, Inhabited

namespace Expansion

/-- The state after a line is written. -/
def write (e : Expansion) (line : List Char) : Expansion := { e with lines := e.lines ++ [line] }

/-- The state after a file is met. -/
def meetFile (e : Expansion) (file : String) : Expansion := { e with met := e.met ++ [file] }

/-- The state after a file is found missing. -/
def miss (e : Expansion) (file : String) : Expansion := { e with missing := e.missing ++ [file] }

/-- The text of the lines, each with a line feed. -/
def text (e : Expansion) : String := String.ofList (e.lines.flatMap (· ++ ['\n']))

end Expansion

/-- One line of an expansion; `expandFile` expands the text of a file. -/
def expandLine (lib : Library) (defined : String → Bool)
    (expandFile : String → Expansion → Expansion) (e : Expansion) (line : List Char) : Expansion :=
  match Include.ofLine? line with
  | none => e.write line
  | some i =>
    if !i.holds defined || e.met.contains i.file then e
    else
      let e := e.meetFile i.file
      match lib.text? i.file with
      | some text => expandFile text e
      | none => e.miss i.file

/-- The expansion of a text. The fuel bounds the depth of files within files. -/
def expand (lib : Library) (defined : String → Bool) : Nat → String → Expansion → Expansion
  | 0, _, e => e
  | fuel + 1, text, e =>
    (Text.linesOf text.toList).foldl (expandLine lib defined (expand lib defined fuel)) e

/-- The expansion of a body. One level is the body, and every further level is a file that no level
above it is. -/
def resolveIncludes (lib : Library) (defined : String → Bool) (body : String) : Expansion :=
  expand lib defined (lib.files.length + 1) body {}

end Source

end SceneShading
