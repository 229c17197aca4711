import TypedJson.Conformance
import TypedJson.KeyLocation

/-! # Diagnostics

Messages about ranges of a document. A disagreement between a document and its type is shown at the
deepest name of its path that the text of the document has.
-/

namespace TypedJson

/-- A message about a range of a document. -/
structure Diagnostic where
  range : Range
  message : String
  deriving DecidableEq, Repr

def Diagnostic.ofMismatches (text : List Char) (mismatches : List Mismatch) : List Diagnostic :=
  mismatches.map fun m => ⟨KeyLocation.locate text m.path.toList, m.message⟩

end TypedJson
