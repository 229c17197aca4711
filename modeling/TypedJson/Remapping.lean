import TypedJson.Artifact
import TypedJson.CheckerOutput
import TypedJson.Diagnostic

/-! # From artifacts back to documents

A finding in the artifact of a document is moved up by the header lines. A finding in the header itself
concerns the tag of the document, and a finding in another file none of it.
-/

namespace TypedJson

inductive Placement where
  | document (diagnostic : Diagnostic)
  | declaration (message : String)
  deriving DecidableEq, Repr

/-- Which paths name the same file, apart from those that are equal as paths. -/
abbrev Aliasing := Path → Path → Bool

namespace Artifact

def isAt (artifact : Artifact) (aliasing : Aliasing) (file : Path) : Bool :=
  file.same artifact.path || aliasing file artifact.path

/-- The place of a finding in the document; `none` if the finding is about another file. -/
def place? (artifact : Artifact) (aliasing : Aliasing) (finding : Finding) : Option Placement :=
  match finding.file with
  | none => none
  | some file =>
    if !artifact.isAt aliasing file then none
    else if finding.line < artifact.headerLines then
      some (.declaration ("Error in $type: " ++ finding.message ++ "\n" ++ artifact.path.text))
    else
      let line := finding.line - artifact.headerLines
      some (.document ⟨⟨⟨line, finding.character⟩, ⟨line, addCapped finding.character finding.length⟩⟩,
        finding.message⟩)

end Artifact

/-- The placed findings of a report, each kind in the order of the report. -/
structure Remapping where
  diagnostics : List Diagnostic
  declarationErrors : List String
  deriving DecidableEq, Repr

namespace Remapping

def isIgnored (codes : List UInt32) (finding : Finding) : Bool :=
  match finding.code with
  | some code => codes.contains code
  | none => false

def diagnostic? : Placement → Option Diagnostic
  | .document diagnostic => some diagnostic
  | .declaration _ => none

def declaration? : Placement → Option String
  | .document _ => none
  | .declaration message => some message

/-- The placed findings of a report, without those whose codes are ignored. -/
def ofFindings (artifact : Artifact) (aliasing : Aliasing) (ignored : List UInt32)
    (findings : List Finding) : Remapping :=
  let placements := (findings.filter (!isIgnored ignored ·)).filterMap (artifact.place? aliasing)
  ⟨placements.filterMap diagnostic?, placements.filterMap declaration?⟩

end Remapping
end TypedJson
