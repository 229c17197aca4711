import TypedJson.FileTree.Basic
import TypedJson.Text.Utf8

/-! # Access to a file tree by paths

A path is walked segment by segment from the root or the working directory. Each segment but the last has
to lead to a directory, links on the way are followed, and the last segment may name an entry that does
not exist yet. At most `maxLinks` links are followed.
-/

namespace TypedJson.FileTree

variable (tree : FileTree)

/-- Where a path leads: a name, and the entry under it if there is one. -/
structure Place where
  name : FileName
  entry : Option Entry

def maxNameBytes : Nat := 255

/-- The smallest number of bytes of a path that is too long. -/
def pathLimit : Nat := 4096

/-- The largest number of links that are followed on one way. -/
def maxLinks : Nat := 40

/-- Walks along segments from a directory. A link is handed on with the segments that remain after it; a
link at the end is left alone if links at the end are not to be followed. -/
def steps (followLast : Bool) (follow : FileName → List (List Char) → Except SystemFault Place) :
    FileName → List (List Char) → Except SystemFault Place
  | here, [] => .ok ⟨here, tree.lookup? here⟩
  | here, segment :: rest =>
    match tree.lookup? here with
    | none => .error .notFound
    | some (.file _) | some (.link _) => .error .notDirectory
    | some .directory =>
      if Path.isIdle segment then steps followLast follow here rest
      else if segment = ['.', '.'] then steps followLast follow here.dropLast rest
      else if maxNameBytes < Text.byteLength segment then .error .tooLong
      else
        let next := here ++ [String.ofList segment]
        match tree.lookup? next with
        | none => if rest = [] then .ok ⟨next, none⟩ else .error .notFound
        | some (.link target) =>
          if rest = [] ∧ !followLast then .ok ⟨next, some (.link target)⟩
          else follow (if target.isAbsolute then [] else here) (target.segments ++ rest)
        | some _ => steps followLast follow next rest

/-- Walks along segments from a directory, following no more than a number of links. -/
def walk (followLast : Bool) : Nat → FileName → List (List Char) → Except SystemFault Place
  | 0 => steps tree followLast fun _ _ => .error .tooManyLinks
  | links + 1 => steps tree followLast (walk followLast links)

def place (followLast : Bool) (path : Path) : Except SystemFault Place :=
  if path.text.toList.contains '\x00' then .error .hasNul
  else if path.text.toList = [] then .error .notFound
  else if pathLimit ≤ Text.byteLength path.text.toList then .error .tooLong
  else tree.walk followLast maxLinks (if path.isAbsolute then [] else tree.workingDirectory) path.segments

def entryAt (followLast : Bool) (path : Path) : Except SystemFault (FileName × Entry) := do
  let place ← tree.place followLast path
  match place.entry with
  | some entry => .ok (place.name, entry)
  | none => .error .notFound

/-- A path leads to an entry, not counting a link that leads nowhere. -/
def hasEntry (path : Path) : Bool := (tree.entryAt true path).toOption.isSome

def isDirectory (path : Path) : Bool :=
  match tree.entryAt true path with
  | .ok (_, .directory) => true
  | _ => false

/-- The name of the entry to which a path leads, free of links. -/
def realName? (path : Path) : Option FileName :=
  (tree.entryAt true path).toOption.map (·.1)

def samePlace (first second : Path) : Bool :=
  match tree.realName? first, tree.realName? second with
  | some first, some second => first = second
  | _, _ => false

def readBytes (path : Path) : Except SystemFault (List UInt8) := do
  match ← tree.entryAt true path with
  | (_, .file content) => .ok content
  | (_, .directory) => .error .isDirectory
  | (_, .link _) => .error .tooManyLinks

def readText (path : Path) : Except SystemFault String := do
  match Text.ofBytes? (← tree.readBytes path) with
  | some text => .ok (String.ofList text)
  | none => .error .notText

/-- Writes a file, which replaces the content of a file that exists. -/
def write (path : Path) (content : List UInt8) : Except SystemFault FileTree := do
  let place ← tree.place true path
  match place.entry with
  | some .directory => .error .isDirectory
  | _ => .ok (tree.insert place.name (.file content))

def remove (path : Path) : Except SystemFault FileTree := do
  match ← tree.entryAt false path with
  | (_, .directory) => .error .isDirectory
  | (name, _) => .ok (tree.erase name)

def changeDirectory (path : Path) : Except SystemFault FileTree := do
  match ← tree.entryAt true path with
  | (name, .directory) => .ok { tree with workingDirectory := name }
  | _ => .error .notDirectory

def pathOf (name : FileName) : Path := ⟨String.intercalate "/" ("" :: name)⟩

def workingPath : Path := if tree.workingDirectory = [] then ⟨"/"⟩ else pathOf tree.workingDirectory

/-- The entries below a directory as texts in order, where a separator at the end marks a directory. -/
def listing (directory : FileName) : List String :=
  let texts := (tree.below directory).map fun (name, entry) =>
    String.intercalate "/" name ++ match entry with
      | .directory => "/"
      | _ => ""
  texts.mergeSort fun first second => decide (first ≤ second)

end TypedJson.FileTree
