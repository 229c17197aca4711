import TypedJson.CommandLine.Line
import TypedJson.Services

/-! # Checking many documents

Documents are checked one after another, because documents of one directory share their artifact. They
share a workspace and a host, which prints errors as it is told them and keeps the diagnostics of a
document until they are taken. A batch is clean if every document is and the host was told no error.
-/

namespace TypedJson.CommandLine

/-- What the host of a batch keeps: the diagnostics of each document, and how many errors it was told. -/
structure Host where
  collections : List (List Component × List Diagnostic)
  errors : Nat

namespace Host

def empty : Host := ⟨[], 0⟩

/-- Takes note of an event. Diagnostics of a document take the place of those that it had. -/
def note (host : Host) : Event → Host
  | .published id diagnostics =>
    { host with
      collections := (id.components, diagnostics) :: host.collections.filter (·.1 ≠ id.components) }
  | .notified _ => { host with errors := host.errors + 1 }
  | _ => host

def take (host : Host) (id : Path) : Host × List Diagnostic :=
  ({ host with collections := host.collections.filter (·.1 ≠ id.components) },
    ((host.collections.find? (·.1 = id.components)).map (·.2)).getD [])

end Host

/-- Lines that are printed, and whether what they are about is clean. -/
structure Summary where
  lines : List Line
  clean : Bool

def Summary.append (first second : Summary) : Summary :=
  ⟨first.lines ++ second.lines, first.clean && second.clean⟩

/-- The name under which a document is shown, relative to the working directory if it lies there. -/
def displayName (workingDirectory id : Path) : String :=
  ((id.relativeTo? workingDirectory).getD id).text

def complaintLine? (colours : Bool) : Event → Option Line
  | .notified message => some (.complaint (Emphasis.error.on colours "error:" ++ " " ++ message))
  | _ => none

/-- The line of a diagnostic. Lines and characters are counted from one. -/
def diagnosticLine (colours : Bool) (name : String) (diagnostic : Diagnostic) : Line :=
  let start := diagnostic.range.start
  .output (name ++ ":" ++ toString (start.line.toNat + 1) ++ ":" ++ toString (start.character.toNat + 1) ++
    ": " ++ Emphasis.error.on colours "error:" ++ " " ++ diagnostic.message)

def checkedSummary (colours : Bool) (name : String) (diagnostics : List Diagnostic)
    (declarationErrors : Nat) : Summary :=
  let clean := diagnostics.isEmpty && declarationErrors = 0
  let okay := if clean then [Line.output (name ++ ": " ++ Emphasis.success.on colours "ok")] else []
  ⟨okay ++ diagnostics.map (diagnosticLine colours name), clean⟩

/-- Sums up the outcome of a document. Diagnostics that were published are taken from the host. -/
def conclude (colours : Bool) (name : String) (id : Path) (host : Host) :
    Option Answer → Host × Summary
  | some (.outcome .untagged) =>
    (host, ⟨[.output (name ++ ": " ++ Emphasis.caution.on colours "untagged, skipped")], true⟩)
  | some (.outcome .failed) => (host, ⟨[], false⟩)
  | some (.outcome (.published _ declarationErrors)) =>
    let (host, diagnostics) := host.take id
    (host, checkedSummary colours name diagnostics declarationErrors)
  | _ => (host, ⟨[], true⟩)

/-- A batch under way: the state of the services, the workspace and the host that the documents share, and
the summary so far. -/
structure Batch (σ : Type) where
  state : σ
  workspace : Workspace
  host : Host
  summary : Summary

namespace Batch

variable {σ : Type}

def start (configuration : Configuration) (state : σ) : Batch σ :=
  ⟨state, .empty configuration, .empty, ⟨[], true⟩⟩

variable (services : Services σ) (colours : Bool) (workingDirectory : Path)

def check (batch : Batch σ) (document : Document) : Batch σ :=
  let finished := services.validate batch.state batch.workspace document
  let complaints := finished.events.filterMap (complaintLine? colours)
  let (host, outcome) := conclude colours (displayName workingDirectory document.id) document.id
    (finished.events.foldl Host.note batch.host) finished.answer
  ⟨finished.state, finished.workspace, host, batch.summary.append ⟨complaints ++ outcome.lines, outcome.clean⟩⟩

def checkAll (batch : Batch σ) (documents : List Document) : Batch σ :=
  documents.foldl (check services colours workingDirectory) batch

end Batch

def checkDocuments {σ : Type} (services : Services σ) (colours : Bool) (workingDirectory : Path)
    (configuration : Configuration) (state : σ) (documents : List Document) : σ × Summary :=
  let batch := (Batch.start configuration state).checkAll services colours workingDirectory documents
  (batch.state, ⟨batch.summary.lines, batch.summary.clean && batch.host.errors = 0⟩)

end TypedJson.CommandLine
