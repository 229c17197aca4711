import TypedJson.CommandLine.Batch
import TypedJson.CommandLine.Inputs

/-! # Carrying out an invocation

An invocation works on a file tree and prints lines. It ends with a status, or with a failure before its
task is done.
-/

namespace TypedJson.CommandLine

/-- How an invocation ends, with the files as it leaves them. -/
structure Execution where
  tree : FileTree
  lines : List Line
  result : Except Failure Bool

namespace Execution

def statusOf (clean : Bool) : Nat := if clean then 0 else 1

def output (execution : Execution) : String := printed (execution.lines.filterMap Line.output?)

def complaints (execution : Execution) : String := printed (execution.lines.filterMap Line.complaint?)

end Execution

variable (colours : Bool) (tree : FileTree)

def tagLine (document : Document) : Line :=
  let name := displayName tree.workingPath document.id
  match TypeTag.ofText? document.text.toList with
  | some tag => .output (name ++ ": " ++ Emphasis.name.on colours tag.name ++ " from " ++ tag.source)
  | none => .output (name ++ ": " ++ Emphasis.caution.on colours "untagged")

def artifactLines (fileName : String) (document : Document) : List Line :=
  match TypeTag.ofText? document.text.toList with
  | some tag =>
    let artifact := Artifact.ofDocument document.id document.text tag fileName
    [.output ("// " ++ artifact.path.text), .output artifact.content]
  | none =>
    [.complaint (displayName tree.workingPath document.id ++ ": " ++ Emphasis.caution.on colours "untagged")]

/-- The settings of a check. The mode is always that of the invocation. -/
def checkSettings (mode : Mode) (reportUnsupported : Bool) (configuration : Configuration) :
    Configuration :=
  { configuration with
    mode := mode
    unsupportedTypes := if reportUnsupported then .report else configuration.unsupportedTypes }

def perform (invocation : Invocation) : Except Failure (FileTree × Summary) :=
  match invocation.task with
  | .showTags => do
    let documents ← invocation.documents tree
    return (tree, ⟨documents.map (tagLine colours tree), true⟩)
  | .showArtifacts => do
    let configuration ← invocation.settings tree
    let documents ← invocation.documents tree
    return (tree, ⟨documents.flatMap (artifactLines colours tree configuration.artifactFileName), true⟩)
  | .check mode reportUnsupported => do
    let configuration := checkSettings mode reportUnsupported (← invocation.settings tree)
    let documents ← invocation.documents tree
    return checkDocuments (Services.ofFiles configuration.checker) colours tree.workingPath configuration
      tree documents

def execute (invocation : Invocation) : Execution :=
  match perform colours tree invocation with
  | .ok (tree, summary) => ⟨tree, summary.lines, .ok summary.clean⟩
  | .error failure => ⟨tree, [], .error failure⟩

end TypedJson.CommandLine
