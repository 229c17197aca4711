import TypedJson.Path

/-! # File trees

A file tree holds everything below the root directory under absolute names, together with the working
directory in which relative paths are read. Names are the texts between separators, so an absolute name
has neither idle segments nor parent directories; those occur only in paths.
-/

namespace TypedJson

inductive SystemFault where
  | notFound
  | denied
  | notDirectory
  | isDirectory
  | tooLong
  | tooManyLinks
  | hasNul
  | notText
  deriving DecidableEq, Repr

def SystemFault.reason : SystemFault → String
  | .notFound => "No such file or directory"
  | .denied => "Permission denied"
  | .notDirectory => "Not a directory"
  | .isDirectory => "Is a directory"
  | .tooLong => "File name too long"
  | .tooManyLinks => "Too many levels of symbolic links"
  | .hasNul => "file name contained an unexpected NUL byte"
  | .notText => "stream did not contain valid UTF-8"

/-- The number of a fault that the system itself reports. -/
def SystemFault.number? : SystemFault → Option Nat
  | .notFound => some 2
  | .denied => some 13
  | .notDirectory => some 20
  | .isDirectory => some 21
  | .tooLong => some 36
  | .tooManyLinks => some 40
  | .hasNul | .notText => none

def SystemFault.message (fault : SystemFault) : String :=
  match fault.number? with
  | some number => fault.reason ++ " (os error " ++ toString number ++ ")"
  | none => fault.reason

/-- What stands under a name: a file with its bytes, a directory, or a link to a path. -/
inductive Entry where
  | file (content : List UInt8)
  | directory
  | link (target : Path)
  deriving DecidableEq

/-- An absolute name, from the root down. -/
abbrev FileName := List String

structure FileTree where
  workingDirectory : FileName
  entries : List (FileName × Entry)

namespace FileTree

variable (tree : FileTree)

/-- The entry under a name. The root is a directory. -/
def lookup? (name : FileName) : Option Entry :=
  if name = [] then some .directory else (tree.entries.find? (·.1 = name)).map (·.2)

def insert (name : FileName) (entry : Entry) : FileTree :=
  { tree with entries := tree.entries.filter (·.1 ≠ name) ++ [(name, entry)] }

def erase (name : FileName) : FileTree :=
  { tree with entries := tree.entries.filter (·.1 ≠ name) }

/-- The last parts of the names directly below a directory, in order. -/
def children (directory : FileName) : List String :=
  let below := tree.entries.filterMap fun (name, _) =>
    if name.dropLast = directory then name.getLast? else none
  below.mergeSort fun first second => decide (first ≤ second)

/-- The names below a directory, relative to it. -/
def below (directory : FileName) : List (FileName × Entry) :=
  tree.entries.filterMap fun (name, entry) =>
    if name ≠ directory ∧ directory.isPrefixOf name then some (name.drop directory.length, entry) else none

/-- Makes the directories on the way to a name. -/
def insertParents (name : FileName) : FileTree :=
  ((List.range name.length).map name.take).foldl (fun tree parent =>
    if (tree.lookup? parent).isSome then tree else tree.insert parent .directory) tree

/-- Without a name, the entries under the other names are found as before. -/
theorem find?_filter_ne (name other : FileName) : (tree.entries.filter (·.1 ≠ name)).find? (·.1 = other) =
    if other = name then none else tree.entries.find? (·.1 = other) := by
  rw [List.find?_filter]
  split
  case isTrue same =>
    subst same
    simp
  case isFalse different =>
    congr 1
    funext entry
    by_cases found : entry.1 = other <;> simp [found, different]

theorem lookup?_insert (name : FileName) (entry : Entry) (other : FileName) :
    (tree.insert name entry).lookup? other =
      if other = [] then some .directory else if other = name then some entry else tree.lookup? other := by
  unfold lookup? insert
  split
  case isTrue => rfl
  case isFalse =>
    rw [List.find?_append, find?_filter_ne]
    by_cases same : other = name
    · simp [same]
    · simp [same, Ne.symm same]

theorem lookup?_erase (name : FileName) (other : FileName) :
    (tree.erase name).lookup? other =
      if other = [] then some .directory else if other = name then none else tree.lookup? other := by
  unfold lookup? erase
  split
  case isTrue => rfl
  case isFalse =>
    rw [find?_filter_ne]
    by_cases same : other = name <;> simp [same]

end FileTree
end TypedJson
