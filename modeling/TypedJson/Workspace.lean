import TypedJson.Configuration
import TypedJson.Gate
import TypedJson.Indexing

/-! # What requests share

A workspace holds the configuration, the gates from which requests draw tickets, the paths that have
been indexed, and the untagged documents whose completion is under way. A request about a tagged
document is staged first: it gets an artifact and a ticket.
-/

namespace TypedJson

/-- The state that all requests share. Requests that write the artifact draw their tickets for its path,
and requests that only compare structure for the document. -/
structure Workspace where
  configuration : Configuration
  artifacts : Gate (List Component)
  documents : Gate (List Component)
  indexed : IndexedSet
  completing : List (List Component)

/-- A request about a tagged document, with its ticket. -/
structure Staged where
  document : Document
  tag : TypeTag
  artifact : Artifact
  mode : Mode
  ticket : Ticket (List Component)

namespace Workspace

def empty (configuration : Configuration) : Workspace := ⟨configuration, .empty, .empty, [], []⟩

/-- Stages a request about a document, if the document has a tag. -/
def stage (workspace : Workspace) (mode : Mode) (document : Document) : Option (Workspace × Staged) :=
  (TypeTag.ofText? document.text.toList).map fun tag =>
    let artifact := Artifact.ofDocument document.id document.text tag
      workspace.configuration.artifactFileName
    match mode with
    | .checker =>
      let (gate, ticket) := workspace.artifacts.issue artifact.path.components
      ({ workspace with artifacts := gate }, ⟨document, tag, artifact, mode, ticket⟩)
    | .matcher =>
      let (gate, ticket) := workspace.documents.issue document.id.components
      ({ workspace with documents := gate }, ⟨document, tag, artifact, mode, ticket⟩)

/-- No newer request has taken over from a staged one. -/
def isCurrent (workspace : Workspace) (staged : Staged) : Bool :=
  match staged.mode with
  | .checker => workspace.artifacts.isCurrent staged.ticket
  | .matcher => workspace.documents.isCurrent staged.ticket

end Workspace
end TypedJson
