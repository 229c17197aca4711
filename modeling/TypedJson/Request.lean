import TypedJson.Workspace

/-! # Requests

A request is what it waits for. `Request.resume` takes the reply to its call and runs on to the next
call or to the end; between two calls no other request runs. Before each step that can be seen from
outside, a request on a tagged document makes sure that its ticket is current, and otherwise it ends
without a trace.
-/

namespace TypedJson

inductive Outcome where
  | skipped
  | untagged
  | superseded
  | published (diagnostics declarationErrors : Nat)
  | failed
  deriving DecidableEq, Repr

inductive Answer where
  | outcome (outcome : Outcome)
  | items (items : List CompletionItem)
  | hover (contents : Option (List String))
  deriving DecidableEq

/-- What the artifact of a staged request is written for. -/
inductive Purpose where
  | validation
  | completion (position : Position)
  | hover (position : Position)
  deriving DecidableEq

def Purpose.superseded : Purpose → Answer
  | validation => .outcome .superseded
  | completion _ => .items []
  | hover _ => .hover none

def Purpose.failed : Purpose → Answer
  | validation => .outcome .failed
  | completion _ => .items []
  | hover _ => .hover none

/-- A request, by the call that it waits for; a finished request waits for none. -/
inductive Request where
  | writing (staged : Staged) (purpose : Purpose)
  | checking (staged : Staged)
  | resolving (staged : Staged) (value : Json)
  | indexing (staged : Staged) (position : Position) (wait : IndexWait) (step : Indexing)
  | completing (staged : Staged) (position : Position)
  | hovering (staged : Staged) (position : Position)
  | removing (staged : Staged) (answer : Answer)
  | completingUntagged (id : Path) (position : Position)
  | finished (answer : Answer)

structure Turn where
  workspace : Workspace
  events : List Event
  request : Request

namespace Staged

variable (staged : Staged)

def inArtifact (position : Position) : Position := position.down staged.artifact.headerLines

end Staged

namespace Request

def call? : Request → Option Call
  | writing staged _ => some (.write staged.artifact.path staged.artifact.content)
  | checking staged => some (.check [staged.artifact.path])
  | resolving staged _ => some (.resolve staged.document.directory staged.tag)
  | indexing staged _ wait step => some (step.call staged.artifact.path wait)
  | completing staged position => some (.completions staged.artifact.path (staged.inArtifact position))
  | hovering staged position => some (.hovers staged.artifact.path (staged.inArtifact position))
  | removing staged _ => some (.remove staged.artifact.path)
  | completingUntagged id position => some (.completions id position)
  | finished _ => none

end Request

namespace Turn

def await (workspace : Workspace) (events : List Event) (request : Request) : Turn :=
  ⟨workspace, events ++ request.call?.toList.map .called, request⟩

def finish (workspace : Workspace) (events : List Event) (answer : Answer) : Turn :=
  ⟨workspace, events, .finished answer⟩

end Turn

namespace Workspace

variable (workspace : Workspace)

/-- Tells the host an error, unless the request has been superseded. -/
def notifyIfCurrent (staged : Staged) (message : String) : List Event :=
  if workspace.isCurrent staged then [.notified message] else []

/-- Writes the artifact of a request, unless it has been superseded. -/
def writeArtifact (staged : Staged) (purpose : Purpose) : Turn :=
  if workspace.isCurrent staged then .await workspace [] (.writing staged purpose)
  else .finish workspace [] purpose.superseded

/-- Removes the artifact and ends. An artifact that belongs to a newer request is left alone. -/
def cleanUp (staged : Staged) (events : List Event) (answer : Answer) : Turn :=
  if workspace.isCurrent staged then .await workspace events (.removing staged answer)
  else .finish workspace events answer

def validate (mode : Mode) (document : Document) : Turn :=
  if !document.isJson then .finish workspace [] (.outcome .skipped)
  else match workspace.stage mode document with
    | none => .finish workspace [] (.outcome .untagged)
    | some (workspace, staged) =>
      match Json.ofText document.text.toList with
      | .error fault =>
        .finish workspace (workspace.notifyIfCurrent staged (Error.invalidJson fault).message)
          (.outcome .failed)
      | .ok value =>
        match mode with
        | .checker => workspace.writeArtifact staged .validation
        | .matcher =>
          if workspace.isCurrent staged then .await workspace [] (.resolving staged value)
          else .finish workspace [] (.outcome .superseded)

/-- Begins to collect suggestions. There is at most one request for suggestions at a time on a document
without a tag, because the language service may in turn ask for suggestions on it. -/
def complete (document : Document) (position : Position) : Turn :=
  if !document.isJson then .finish workspace [] (.items [])
  else match workspace.stage .checker document with
    | some (workspace, staged) => workspace.writeArtifact staged (.completion position)
    | none =>
      if workspace.completing.contains document.id.components then .finish workspace [] (.items [])
      else
        .await { workspace with completing := document.id.components :: workspace.completing } []
          (.completingUntagged document.id position)

def hover (document : Document) (position : Position) : Turn :=
  if !document.isJson then .finish workspace [] (.hover none)
  else match workspace.stage .checker document with
    | none => .finish workspace [] (.hover none)
    | some (workspace, staged) => workspace.writeArtifact staged (.hover position)

/-- Takes a document off the untagged documents whose completion is under way. -/
def leave (id : Path) : Workspace :=
  { workspace with completing := workspace.completing.erase id.components }

def afterIndexing (staged : Staged) (position : Position) (wait : IndexWait)
    (stretch : Indexing.Stretch) : Turn :=
  let workspace := { workspace with indexed := stretch.indexed }
  match stretch.next with
  | some step => ⟨workspace, stretch.events, .indexing staged position wait step⟩
  | none => .await workspace stretch.events (.completing staged position)

def afterWrite (surroundings : Surroundings) (staged : Staged) (purpose : Purpose) (success : Bool) :
    Turn :=
  if !success then .finish workspace [] purpose.failed
  else if !workspace.isCurrent staged then workspace.cleanUp staged [] purpose.superseded
  else match purpose with
    | .validation => .await workspace [] (.checking staged)
    | .completion position =>
      let wait := workspace.configuration.indexWait
      workspace.afterIndexing staged position wait
        (Indexing.start surroundings workspace.indexed staged.artifact.path)
    | .hover position => .await workspace [] (.hovering staged position)

def afterCheck (surroundings : Surroundings) (staged : Staged) (result : Except Error (List Finding)) :
    Turn :=
  match result with
  | .error error =>
    workspace.cleanUp staged (workspace.notifyIfCurrent staged ("Error: " ++ error.message))
      (.outcome .failed)
  | .ok findings =>
    if !workspace.isCurrent staged then workspace.cleanUp staged [] (.outcome .superseded)
    else
      let remapping := Remapping.ofFindings staged.artifact surroundings.aliasing
        workspace.configuration.ignoredCodes findings
      workspace.cleanUp staged
        (remapping.declarationErrors.map .notified ++
          [.published staged.document.id remapping.diagnostics])
        (.outcome (.published remapping.diagnostics.length remapping.declarationErrors.length))

def afterResolve (staged : Staged) (value : Json) (result : Except Error Ty) : Turn :=
  match result with
  | .error error =>
    .finish workspace (workspace.notifyIfCurrent staged ("Error in $type: " ++ error.message))
      (.outcome .failed)
  | .ok type =>
    if !workspace.isCurrent staged then .finish workspace [] (.outcome .superseded)
    else
      let diagnostics := Diagnostic.ofMismatches staged.document.text.toList
        (type.mismatches workspace.configuration.unsupportedTypes (some value) "")
      .finish workspace [.published staged.document.id diagnostics]
        (.outcome (.published diagnostics.length 0))

end Workspace

namespace Request

/-- Goes on after the reply to the call that a request waits for. A reply to another call is not
listened to. -/
def resume (surroundings : Surroundings) (workspace : Workspace) (request : Request) (reply : Reply) :
    Turn :=
  match request, reply with
  | writing staged purpose, .finished success => workspace.afterWrite surroundings staged purpose success
  | checking staged, .report result => workspace.afterCheck surroundings staged result
  | resolving staged value, .resolved result => workspace.afterResolve staged value result
  | indexing staged position wait step, .finished success =>
    workspace.afterIndexing staged position wait
      (step.resume surroundings wait workspace.indexed staged.artifact.path success)
  | completing staged position, .items items =>
    workspace.cleanUp staged []
      (.items (CompletionItem.shapeAll items staged.document.text.toList position))
  | hovering staged _, .hovers texts => workspace.cleanUp staged [] (.hover texts.head?)
  | removing _ answer, .finished _ => .finish workspace [] answer
  | completingUntagged id _, .items items =>
    .finish (workspace.leave id) [] (.items (CompletionItem.forUntagged items))
  | other, _ => ⟨workspace, [], other⟩

def cancel (workspace : Workspace) : Request → Workspace
  | completingUntagged id _ => workspace.leave id
  | _ => workspace

end Request
end TypedJson
