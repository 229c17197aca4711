import TypedJson.Path
import TypedJson.TypeTag

/-! # Documents and their artifacts

The artifact of a tagged document is a source file that a type checker can check: two header lines
that import the type and assert a value against it, and then the text of the document as it is. It
lies beside the document, under one name for all documents of a directory.
-/

namespace TypedJson

structure Document where
  id : Path
  language : String
  text : String

namespace Document

/-- Only JSON documents are looked at. -/
def isJson (document : Document) : Bool := document.language = "json"

/-- The directory in which the source of a type is looked up. -/
def directory (document : Document) : Path := document.id.parent?.getD ⟨""⟩

end Document

/-- A source file that asserts a document against its type. -/
structure Artifact where
  path : Path
  content : String
  headerLines : UInt32

namespace Artifact

def defaultFileName : String := "temp-validation.ts"

/-- The two header lines. The tag belongs to the document but not to the type, so the type is extended
by it. -/
def header (tag : TypeTag) : List String :=
  ["import \x7b " ++ tag.name ++ " \x7d from \"" ++ tag.source ++ "\";",
    "export const data: " ++ tag.name ++
      " & \x7b $type: \x7b $from: string, $import: string \x7d \x7d = "]

def pathFor (document : Path) (fileName : String) : Path :=
  match document.parent? with
  | some directory => directory.join ⟨fileName⟩
  | none => ⟨fileName⟩

def headerText (tag : TypeTag) : String := String.join ((header tag).map (· ++ "\n"))

def ofDocument (id : Path) (text : String) (tag : TypeTag) (fileName : String) : Artifact :=
  ⟨pathFor id fileName, headerText tag ++ text, (header tag).length.toUInt32⟩

end Artifact
end TypedJson
