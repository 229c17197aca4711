import TypedJson.FileTree.Access
import TypedJson.Glob.Pattern

/-! # The paths that match a pattern

A pattern is split into segments, and each segment is looked up in the directories that the segments
before it lead to. Results come in the order of names, and a directory comes before what is in it. A
segment without wildcards is looked up as it is, so it may name the current or the parent directory.
-/

namespace TypedJson.Glob

/-- A pattern for paths: where it starts, its segments, and whether it only matches directories. -/
structure PathPattern where
  start : Path
  segments : List Pattern
  directoriesOnly : Bool

namespace PathPattern

def dropEmptyEnd (segments : List (List Char)) : List (List Char) :=
  if segments.getLast? = some [] then segments.dropLast else segments

/-- Reads a pattern for paths. It has to be a pattern as a whole, and so does each of its segments. -/
def ofText (text : String) : Except PatternFault PathPattern := do
  let characters := text.toList
  let _ ← Pattern.ofText characters
  let absolute := Path.isAbsolute ⟨text⟩
  let body := if absolute then characters.drop 1 else characters
  let segments ← (dropEmptyEnd (body.splitOn '/')).mapM Pattern.ofText
  .ok ⟨⟨if absolute then "/" else "."⟩, segments, characters.getLast? = some '/'⟩

variable (tree : FileTree) (directoriesOnly : Bool)

/-- The path of an entry of a directory; entries of the current directory are named without it. -/
def child (directory : Path) (name : String) : Path :=
  if directory.same ⟨"."⟩ then ⟨name⟩ else directory.join ⟨name⟩

def accept (path : Path) : List Path :=
  if directoriesOnly && !tree.isDirectory path then [] else [path]

def namesIn (directory : Path) : List String :=
  match tree.entryAt true directory with
  | .ok (name, .directory) => tree.children name
  | _ => []

/-- The directories that no listing shows, as far as a segment that begins with a point matches them. -/
def hiddenDirectories (segment : Pattern) : List String :=
  if segment.head? = some (.literal '.') then
    ["..", "."].filter fun name => segment.isMatch name.toList
  else []

/-- A segment without wildcards leads from a directory to an entry. -/
def hasLiteral (directory : Path) (name : String) (path : Path) : Bool :=
  if name = "." ∨ name = ".." then tree.isDirectory directory
  else (tree.entryAt true path).toOption.isSome || (tree.entryAt false path).toOption.isSome

/-- The results below a directory for the segments of a pattern. The bound limits the depth. -/
def search : Nat → List Pattern → Path → List Path
  | 0, _, _ => []
  | _, [], _ => []
  | depth + 1, segment :: rest, directory =>
    /- Results from a path that the first segment has led to. -/
    let goOn (rest : List Pattern) (path : Path) : List Path :=
      if rest.isEmpty then accept tree directoriesOnly path else search depth rest path
    /- Results from an entry whose name the first of some segments has to match. -/
    let byName (segments : List Pattern) (name : String) (path : Path) : List Path :=
      match segments with
      | [] => []
      | segment :: rest => if segment.isMatch name.toList then goOn rest path else []
    match segment.literal? with
    | some text =>
      let name := String.ofList text
      let path := child directory name
      if hasLiteral tree directory name path then goOn rest path else []
    | none =>
      if !tree.isDirectory directory then []
      else
        let hidden := (hiddenDirectories segment).flatMap fun name => goOn rest (directory.join ⟨name⟩)
        let rest' := rest.dropWhile Pattern.isRecursive
        hidden ++ (namesIn tree directory).flatMap fun name =>
          let path := child directory name
          if segment.isRecursive then
            let itself := if rest'.isEmpty then (if tree.isDirectory path then [path] else [])
              else byName rest' name path
            itself ++ search depth (segment :: rest') path
          else byName (segment :: rest) name path

/-- The paths that match a pattern. No way through a tree passes more directories than there are entries
between two links. -/
def matchesIn (pattern : PathPattern) : List Path :=
  search tree pattern.directoriesOnly
    (pattern.segments.length + (FileTree.maxLinks + 1) * (tree.entries.length + 1))
    pattern.segments pattern.start

end PathPattern

def expand (tree : FileTree) (text : String) : Except PatternFault (List Path) :=
  (PathPattern.ofText text).map (·.matchesIn tree)

end TypedJson.Glob
