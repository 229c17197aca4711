import TypedJson.Error
import TypedJson.FileTree.Access
import TypedJson.TypeModule
import TypedJson.TypeTag

/-! # Sources of types

The tag of a document names a type and the module that exports it, by a path that starts at the directory
of the document.
-/

namespace TypedJson.TypeTag

def sourceIn (tag : TypeTag) (directory : Path) : Path := directory.join ⟨tag.source⟩

/-- The type that a tag names, if the text of its module is at hand. -/
def typeIn (tag : TypeTag) (source : Path) (text : List Char) : Except Error Ty :=
  match TypeModule.ofText text with
  | .error fault => .error (.invalidModule source fault.message)
  | .ok types =>
    match getMember? tag.name types with
    | some type => .ok type
    | none => .error (.typeNotFound tag.name source)

def resolve (tag : TypeTag) (tree : FileTree) (directory : Path) : Except Error Ty :=
  let source := tag.sourceIn directory
  match tree.readText source with
  | .error .notFound => .error (.sourceNotFound source)
  | .error fault => .error (.system fault.message)
  | .ok text => tag.typeIn source text.toList

end TypedJson.TypeTag
