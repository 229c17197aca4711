/-! # File paths

A path keeps the text it was written with. Paths are compared by their components: repeated and
trailing separators and components that name the current directory do not count, except for a
current directory at the start of a relative path. A component that names the parent directory is
never folded away, because it may follow a symbolic link.
-/

namespace TypedJson

inductive Component where
  | root
  | current
  | parent
  | name (text : String)
  deriving DecidableEq, Repr

def Component.text : Component → String
  | .root => "/"
  | .current => "."
  | .parent => ".."
  | .name text => text

/-- A file path as written. -/
structure Path where
  text : String
  deriving DecidableEq, Repr, Inhabited

namespace Path

/-- Segments that do not count as components. -/
def isIdle (segment : List Char) : Bool := segment = [] || segment = ['.']

/-- The component that a segment stands for, if it counts. -/
def componentOf? (segment : List Char) : Option Component :=
  if isIdle segment then none
  else if segment = ['.', '.'] then some .parent
  else some (.name (String.ofList segment))

/-- A path that starts with a separator names the same file from everywhere. -/
def isAbsolute (path : Path) : Bool := path.text.toList.head? = some '/'

def segments (path : Path) : List (List Char) := path.text.toList.splitOn '/'

/-- The component at the start of a path that does not come from a counted segment. -/
def anchor? (path : Path) : Option Component :=
  if path.isAbsolute then some .root
  else if path.segments.head? = some ['.'] then some .current
  else none

/-- The components of a path. Two paths are the same if these are. -/
def components (path : Path) : List Component :=
  path.anchor?.toList ++ path.segments.filterMap componentOf?

/-- Paths are compared by their components, not by their text. -/
def same (first second : Path) : Bool := first.components = second.components

/-- The path of an entry below a directory. An absolute entry stands for itself; joining the empty
path adds a separator at the end. -/
def join (directory entry : Path) : Path :=
  if entry.isAbsolute then entry
  else if directory.text.toList = [] ∨ directory.text.toList.getLast? = some '/' then
    ⟨directory.text ++ entry.text⟩
  else ⟨directory.text ++ "/" ++ entry.text⟩

/-- The part of a path that is its anchor, and the segments after it. -/
def splitAnchor (path : Path) : List Char × List (List Char) :=
  match path.anchor? with
  | none => ([], path.segments)
  | some _ => (path.text.toList.take 1, (path.text.toList.drop 1).splitOn '/')

def dropIdleEnd (segments : List (List Char)) : List (List Char) :=
  (segments.reverse.dropWhile isIdle).reverse

/-- The directory of a path, as the beginning of its text; the root and the empty path have none. -/
def parent? (path : Path) : Option Path :=
  let (head, body) := path.splitAnchor
  match dropIdleEnd body with
  | [] => if head = ['.'] then some ⟨""⟩ else none
  | counted => some ⟨String.ofList (head ++ ['/'].intercalate (dropIdleEnd counted.dropLast))⟩

/-- The text of a path from the component with the given number on. -/
def dropComponents : Nat → List (List Char) → List (List Char)
  | 0, segments => segments.dropWhile isIdle
  | count + 1, segments => dropComponents count ((segments.dropWhile isIdle).drop 1)

def relativeTo? (path directory : Path) : Option Path :=
  if directory.components.isPrefixOf path.components then
    let counted := directory.components.length - directory.anchor?.toList.length
    let body := if directory.anchor?.isSome then path.splitAnchor.2 else path.segments
    some ⟨String.ofList (['/'].intercalate (dropIdleEnd (dropComponents counted body)))⟩
  else none

def extend (path : Path) (components : List Component) : Path :=
  components.foldl (fun path component => path.join ⟨component.text⟩) path

/-- The absolute path of a path, read in a working directory. Two separators at the start are kept,
and so is a separator at the end; the empty path has no absolute form. -/
def absolute? (path workingDirectory : Path) : Option Path :=
  let text := path.text.toList
  if text = [] then none
  else
    let components := path.components.filter (· ≠ .current)
    let whole :=
      if path.isAbsolute then
        if text.take 2 = ['/', '/'] ∧ text.take 3 ≠ ['/', '/', '/'] then
          extend ⟨"//"⟩ (components.drop 1)
        else extend ⟨""⟩ components
      else extend workingDirectory components
    some (if text.getLast? = some '/' then whole.join ⟨""⟩ else whole)

theorem same_iff {first second : Path} : first.same second = true ↔ first.components = second.components := by
  simp [same]

end Path
end TypedJson
