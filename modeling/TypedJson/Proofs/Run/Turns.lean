import TypedJson.Proofs.Run.Basic

/-! # The ways of a request

`Starts` lists how a request can begin and `Continues` how it can go on after a reply, each with all
that follows: the workspace, what was done, and what the request waits for. `Demand.starts` and
`Request.continues` show that these are the only ways. Proofs about runs go through these lists and do
not open the functions that requests are made of.

A ticket is current when it has just been drawn, so a request that begins is never superseded at once.
-/

namespace TypedJson

/-- The lane of a staged request. -/
def Staged.lane (staged : Staged) : Lane := ⟨staged.mode, staged.ticket.key⟩

namespace Workspace

/-- The gate from which requests in a mode draw their tickets. -/
def gate (workspace : Workspace) : Mode → Gate (List Component)
  | .checker => workspace.artifacts
  | .matcher => workspace.documents

/-- The workspace after a ticket has been drawn in a lane. -/
def issue (workspace : Workspace) : Lane → Workspace
  | ⟨.checker, key⟩ => { workspace with artifacts := (workspace.artifacts.issue key).1 }
  | ⟨.matcher, key⟩ => { workspace with documents := (workspace.documents.issue key).1 }

@[simp] theorem issue_configuration (workspace : Workspace) (lane : Lane) :
    (workspace.issue lane).configuration = workspace.configuration := by
  rcases lane with ⟨_ | _, key⟩ <;> rfl

theorem gate_issue (workspace : Workspace) (lane : Lane) (mode : Mode) :
    (workspace.issue lane).gate mode =
      if mode = lane.mode then ((workspace.gate mode).issue lane.key).1 else workspace.gate mode := by
  rcases lane with ⟨_ | _, key⟩ <;> cases mode <;> rfl

theorem isCurrent_eq (workspace : Workspace) (staged : Staged) :
    workspace.isCurrent staged = (workspace.gate staged.mode).isCurrent staged.ticket := by
  unfold isCurrent gate
  cases staged.mode <;> rfl

/-- Drawing a ticket supersedes the requests of that lane alone. -/
theorem isCurrent_issue_iff (workspace : Workspace) (lane : Lane) (staged : Staged) :
    (workspace.issue lane).isCurrent staged = true ↔
      if staged.lane = lane then staged.ticket.token = (workspace.gate lane.mode).issued + 1
      else workspace.isCurrent staged = true := by
  obtain ⟨mode, key⟩ := lane
  rw [isCurrent_eq, isCurrent_eq, gate_issue]
  by_cases sameMode : staged.mode = mode
  · subst sameMode
    simp [Gate.isCurrent_issue_iff, Staged.lane]
  · simp [sameMode, Staged.lane]

end Workspace

/-- A staged request holds what its demand asks for under a configuration. -/
structure Staged.Serves (configuration : Configuration) (demand : Demand) (staged : Staged) : Prop where
  document : staged.document = demand.document
  mode : staged.mode = demand.mode
  tag : TypeTag.ofText? demand.document.text.toList = some staged.tag
  artifact : staged.artifact = Artifact.ofDocument demand.document.id demand.document.text staged.tag
    configuration.artifactFileName
  lane : demand.lane? configuration = some staged.lane

theorem Demand.lane?_eq_some_iff {configuration : Configuration} {demand : Demand} {lane : Lane} :
    demand.lane? configuration = some lane ↔
      demand.document.isJson = true ∧ (TypeTag.ofText? demand.document.text.toList).isSome = true ∧
        lane = ⟨demand.mode, keyFor configuration demand.document.id demand.mode⟩ := by
  simp only [lane?, Option.ite_none_right_eq_some, Bool.and_eq_true, Option.some.injEq, and_assoc, @eq_comm _ lane]

/-- A request that writes the artifact is in the lane of the artifact's path. -/
theorem Staged.Serves.lane_eq {configuration : Configuration} {demand : Demand} {staged : Staged}
    (serves : staged.Serves configuration demand) (writes : staged.mode = .checker) :
    staged.lane = ⟨.checker, staged.artifact.path.components⟩ := by
  obtain ⟨-, -, own⟩ := Demand.lane?_eq_some_iff.mp serves.lane
  rw [own, serves.artifact]
  simp only [← serves.mode, writes, Demand.keyFor, Artifact.ofDocument]

namespace Demand

/-- A validation of a text that is not JSON. It ends before the artifact is written. -/
def isMalformed (demand : Demand) : Bool :=
  match demand with
  | validate _ _ => !demand.isWellFormed
  | _ => false

theorem isMalformed_validate_iff {mode : Mode} {document : Document} :
    (validate mode document).isMalformed = false ↔ ∃ value, Json.ofText document.text.toList = .ok value := by
  simp only [isMalformed, isWellFormed, Demand.document]
  cases Json.ofText document.text.toList <;> simp

/-- What the artifact is written for, if it is. -/
def purpose? : Demand → Option Purpose
  | validate .checker _ => some .validation
  | validate .matcher _ => none
  | complete _ position => some (.completion position)
  | hover _ position => some (.hover position)

/-- The answer to a demand that nothing is done about. -/
def declined (demand : Demand) : Answer :=
  match demand with
  | validate _ document => .outcome (if document.isJson then .untagged else .skipped)
  | complete _ _ => .items []
  | hover _ _ => .hover none

/-- The request that draws the next ticket of its lane. -/
def staged (workspace : Workspace) (demand : Demand) (tag : TypeTag) : Staged where
  document := demand.document
  tag := tag
  artifact := Artifact.ofDocument demand.document.id demand.document.text tag
    workspace.configuration.artifactFileName
  mode := demand.mode
  ticket :=
    ⟨keyFor workspace.configuration demand.document.id demand.mode, (workspace.gate demand.mode).issued + 1⟩

end Demand

/-- A request draws the next ticket of its lane: what it is staged as, and the workspace after that. -/
structure Draws (workspace : Workspace) (demand : Demand) (after : Workspace) (staged : Staged) :
    Prop where
  serves : staged.Serves workspace.configuration demand
  token : staged.ticket.token = (workspace.gate staged.mode).issued + 1
  after : after = workspace.issue staged.lane

theorem Draws.isCurrent {workspace after : Workspace} {demand : Demand} {staged : Staged}
    (draws : Draws workspace demand after staged) : after.isCurrent staged = true := by
  rw [draws.after, Workspace.isCurrent_issue_iff, if_pos rfl]
  exact draws.token

/-- The ways in which a request begins. -/
inductive Starts (workspace : Workspace) : Demand → Turn → Prop
  | aside {demand : Demand} (unlaned : demand.lane? workspace.configuration = none) :
      Starts workspace demand (.finish workspace [] demand.declined)
  | ask {document : Document} {position : Position}
      (unlaned : (Demand.complete document position).lane? workspace.configuration = none)
      (json : document.isJson = true)
      (free : workspace.completing.contains document.id.components = false) :
      Starts workspace (.complete document position)
        (.await { workspace with completing := document.id.components :: workspace.completing } []
          (.completingUntagged document.id position))
  | malformed {mode : Mode} {document : Document} {after : Workspace} {staged : Staged} {fault : Fault}
      (draws : Draws workspace (.validate mode document) after staged)
      (broken : Json.ofText document.text.toList = .error fault) :
      Starts workspace (.validate mode document)
        (.finish after [.notified (Error.invalidJson fault).message] (.outcome .failed))
  | write {demand : Demand} {after : Workspace} {staged : Staged} {purpose : Purpose}
      (draws : Draws workspace demand after staged) (purposed : demand.purpose? = some purpose)
      (sound : demand.isMalformed = false) :
      Starts workspace demand (.await after [] (.writing staged purpose))
  | resolve {document : Document} {after : Workspace} {staged : Staged} {value : Json}
      (draws : Draws workspace (.validate .matcher document) after staged)
      (read : Json.ofText document.text.toList = .ok value) :
      Starts workspace (.validate .matcher document) (.await after [] (.resolving staged value))

namespace Demand

variable {workspace : Workspace}

theorem lane?_eq_none_iff {configuration : Configuration} {demand : Demand} :
    demand.lane? configuration = none ↔
      demand.document.isJson = false ∨ TypeTag.ofText? demand.document.text.toList = none := by
  simp [lane?, Classical.or_iff_not_imp_left]

theorem draws (workspace : Workspace) {demand : Demand} {tag : TypeTag} (json : demand.document.isJson = true)
    (tagged : TypeTag.ofText? demand.document.text.toList = some tag) :
    Draws workspace demand
      (workspace.issue ⟨demand.mode, keyFor workspace.configuration demand.document.id demand.mode⟩)
      (demand.staged workspace tag) where
  serves := ⟨rfl, rfl, tagged, rfl, by simp [lane?, json, tagged, staged, Staged.lane]⟩
  token := rfl
  after := rfl

theorem stage_eq (workspace : Workspace) {demand : Demand} {tag : TypeTag}
    (tagged : TypeTag.ofText? demand.document.text.toList = some tag) :
    workspace.stage demand.mode demand.document =
      some (workspace.issue ⟨demand.mode, keyFor workspace.configuration demand.document.id demand.mode⟩,
        demand.staged workspace tag) := by
  simp only [Workspace.stage, tagged, Option.map_some, staged]
  cases demand.mode <;> rfl

theorem stage_eq_none (workspace : Workspace) {demand : Demand}
    (untagged : TypeTag.ofText? demand.document.text.toList = none) :
    workspace.stage demand.mode demand.document = none := by
  simp [Workspace.stage, untagged]

/-- A request on a tagged document begins in one of three ways. -/
private theorem starts_staged {demand : Demand} {tag : TypeTag} (json : demand.document.isJson = true)
    (tagged : TypeTag.ofText? demand.document.text.toList = some tag) :
    Starts workspace demand (demand.start workspace) := by
  have draws := Demand.draws workspace json tagged
  have staging := stage_eq workspace tagged
  have current := draws.isCurrent
  cases demand with
  | validate mode document =>
    simp only [Demand.document, Demand.mode] at json staging current draws
    simp only [start, Workspace.validate, json, staging, Bool.not_true, Bool.false_eq_true, if_false]
    cases read : Json.ofText document.text.toList with
    | error fault =>
      simp only [Workspace.notifyIfCurrent, current, if_true]
      exact .malformed draws read
    | ok value =>
      cases mode with
      | checker =>
        simp only [Workspace.writeArtifact, current, if_true]
        exact .write draws rfl (isMalformed_validate_iff.mpr ⟨value, read⟩)
      | matcher =>
        simp only [current, if_true]
        exact .resolve draws read
  | complete document position =>
    simp only [Demand.document, Demand.mode] at json staging current draws
    simp only [start, Workspace.complete, json, staging, Bool.not_true, Bool.false_eq_true, if_false,
      Workspace.writeArtifact, current, if_true]
    exact .write draws rfl rfl
  | hover document position =>
    simp only [Demand.document, Demand.mode] at json staging current draws
    simp only [start, Workspace.hover, json, staging, Bool.not_true, Bool.false_eq_true, if_false,
      Workspace.writeArtifact, current, if_true]
    exact .write draws rfl rfl

/-- Nothing is done about other documents, except that suggestions are asked for. -/
private theorem starts_aside {demand : Demand}
    (unlaned : demand.lane? workspace.configuration = none) :
    Starts workspace demand (demand.start workspace) := by
  have aside := Starts.aside unlaned
  cases json : demand.document.isJson with
  | false =>
    cases demand <;> simp only [Demand.document] at json <;>
      simpa [start, Workspace.validate, Workspace.complete, Workspace.hover, declined, json] using aside
  | true =>
    have untagged := (lane?_eq_none_iff.mp unlaned).resolve_left (by simp [json])
    have staging := stage_eq_none workspace untagged
    cases demand with
    | validate mode document =>
      simp only [Demand.document, Demand.mode] at json staging
      simpa [start, Workspace.validate, declined, json, staging] using aside
    | hover document position =>
      simp only [Demand.document, Demand.mode] at json staging
      simpa [start, Workspace.hover, declined, json, staging] using aside
    | complete document position =>
      simp only [Demand.document, Demand.mode] at json staging
      simp only [start, Workspace.complete, json, staging, Bool.not_true, Bool.false_eq_true, if_false]
      cases free : workspace.completing.contains document.id.components with
      | true => simpa [declined] using aside
      | false => simpa using Starts.ask unlaned json free

/-- The first stretch of a request is one of those that are listed. -/
theorem starts (workspace : Workspace) (demand : Demand) :
    Starts workspace demand (demand.start workspace) := by
  cases json : demand.document.isJson with
  | false => exact starts_aside (lane?_eq_none_iff.mpr (.inl json))
  | true =>
    cases tagged : TypeTag.ofText? demand.document.text.toList with
    | none => exact starts_aside (lane?_eq_none_iff.mpr (.inr tagged))
    | some tag => exact starts_staged json tagged

end Demand

/-- An event of the indexing of an artifact. It changes no file and tells the host nothing. -/
def Event.isIndexing : Event → Bool
  | .askedOpen _ | .askedIndexed _ => true
  | .called (.openView _) | .called (.closeView _) | .called (.sleep _) => true
  | _ => false

namespace Indexing

variable {surroundings : Surroundings} {wait : IndexWait} {indexed : IndexedSet} {path : Path}

theorem start_events : (start surroundings indexed path).events.all Event.isIndexing = true := by
  unfold start
  split
  · rfl
  · split <;> rfl

theorem poll_events {waited : ℕ} :
    (poll surroundings wait indexed path waited).events.all Event.isIndexing = true := by
  unfold poll
  split
  · split <;> rfl
  · rfl

theorem resume_events {success : Bool} (step : Indexing) :
    (step.resume surroundings wait indexed path success).events.all Event.isIndexing = true := by
  cases step with
  | opening =>
    simp only [resume]
    split
    · exact poll_events
    · rfl
  | sleeping waited => exact poll_events
  | closing => rfl

end Indexing

/-- What a finding report says about a document, placed as the surroundings name files. -/
def Staged.remapping (staged : Staged) (configuration : Configuration) (surroundings : Surroundings)
    (findings : List Finding) : Remapping :=
  .ofFindings staged.artifact surroundings.aliasing configuration.ignoredCodes findings

/-- What is published after a report: an error for each finding in the header, then the diagnostics. -/
def Staged.publication (staged : Staged) (remapping : Remapping) : List Event :=
  remapping.declarationErrors.map .notified ++ [.published staged.document.id remapping.diagnostics]

/-- The ways in which a request goes on after the reply to its call. A request is `stale` when a newer
one has taken its lane over. -/
inductive Continues (surroundings : Surroundings) (workspace : Workspace) : Request → Reply → Turn → Prop
  | unwritten {staged : Staged} {purpose : Purpose} :
      Continues surroundings workspace (.writing staged purpose) (.finished false)
        (.finish workspace [] purpose.failed)
  | overtaken {staged : Staged} {purpose : Purpose} (stale : workspace.isCurrent staged = false) :
      Continues surroundings workspace (.writing staged purpose) (.finished true)
        (.finish workspace [] purpose.superseded)
  | check {staged : Staged} (current : workspace.isCurrent staged = true) :
      Continues surroundings workspace (.writing staged .validation) (.finished true)
        (.await workspace [] (.checking staged))
  | look {staged : Staged} {position : Position} (current : workspace.isCurrent staged = true) :
      Continues surroundings workspace (.writing staged (.hover position)) (.finished true)
        (.await workspace [] (.hovering staged position))
  | index {request : Request} {reply : Reply} {staged : Staged} {position : Position} {wait : IndexWait}
      {stretch : Indexing.Stretch}
      (before : request = .writing staged (.completion position) ∧ workspace.isCurrent staged = true ∨
        ∃ step, request = .indexing staged position wait step)
      (quiet : stretch.events.all Event.isIndexing = true) :
      Continues surroundings workspace request reply (workspace.afterIndexing staged position wait stretch)
  | unchecked {staged : Staged} {error : Error} (current : workspace.isCurrent staged = true) :
      Continues surroundings workspace (.checking staged) (.report (.error error))
        (.await workspace [.notified ("Error: " ++ error.message)] (.removing staged (.outcome .failed)))
  | uncheckedStale {staged : Staged} {error : Error} (stale : workspace.isCurrent staged = false) :
      Continues surroundings workspace (.checking staged) (.report (.error error))
        (.finish workspace [] (.outcome .failed))
  | checkedStale {staged : Staged} {findings : List Finding} (stale : workspace.isCurrent staged = false) :
      Continues surroundings workspace (.checking staged) (.report (.ok findings))
        (.finish workspace [] (.outcome .superseded))
  | checked {staged : Staged} {findings : List Finding} {remapping : Remapping}
      (current : workspace.isCurrent staged = true)
      (placed : remapping = staged.remapping workspace.configuration surroundings findings) :
      Continues surroundings workspace (.checking staged) (.report (.ok findings))
        (.await workspace (staged.publication remapping) (.removing staged
          (.outcome (.published remapping.diagnostics.length remapping.declarationErrors.length))))
  | unresolved {staged : Staged} {value : Json} {error : Error}
      (current : workspace.isCurrent staged = true) :
      Continues surroundings workspace (.resolving staged value) (.resolved (.error error))
        (.finish workspace [.notified ("Error in $type: " ++ error.message)] (.outcome .failed))
  | unresolvedStale {staged : Staged} {value : Json} {error : Error}
      (stale : workspace.isCurrent staged = false) :
      Continues surroundings workspace (.resolving staged value) (.resolved (.error error))
        (.finish workspace [] (.outcome .failed))
  | resolvedStale {staged : Staged} {value : Json} {type : Ty} (stale : workspace.isCurrent staged = false) :
      Continues surroundings workspace (.resolving staged value) (.resolved (.ok type))
        (.finish workspace [] (.outcome .superseded))
  | resolved {staged : Staged} {value : Json} {type : Ty} {diagnostics : List Diagnostic}
      (current : workspace.isCurrent staged = true)
      (compared : diagnostics = Diagnostic.ofMismatches staged.document.text.toList
        (type.mismatches workspace.configuration.unsupportedTypes (some value) "")) :
      Continues surroundings workspace (.resolving staged value) (.resolved (.ok type))
        (.finish workspace [.published staged.document.id diagnostics]
          (.outcome (.published diagnostics.length 0)))
  | suggested {staged : Staged} {position : Position} {items : List CompletionItem} :
      Continues surroundings workspace (.completing staged position) (.items items)
        (workspace.cleanUp staged []
          (.items (CompletionItem.shapeAll items staged.document.text.toList position)))
  | looked {staged : Staged} {position : Position} {texts : List (List String)} :
      Continues surroundings workspace (.hovering staged position) (.hovers texts)
        (workspace.cleanUp staged [] (.hover texts.head?))
  | removed {staged : Staged} {answer : Answer} {success : Bool} :
      Continues surroundings workspace (.removing staged answer) (.finished success)
        (.finish workspace [] answer)
  | answered {id : Path} {position : Position} {items : List CompletionItem} :
      Continues surroundings workspace (.completingUntagged id position) (.items items)
        (.finish (workspace.leave id) [] (.items (CompletionItem.forUntagged items)))

theorem Workspace.cleanUp_current {workspace : Workspace} {staged : Staged} {events : List Event}
    {answer : Answer} (current : workspace.isCurrent staged = true) :
    workspace.cleanUp staged events answer = .await workspace events (.removing staged answer) := by
  simp only [Workspace.cleanUp, current, if_true]

theorem Workspace.cleanUp_stale {workspace : Workspace} {staged : Staged} {events : List Event}
    {answer : Answer} (stale : workspace.isCurrent staged = false) :
    workspace.cleanUp staged events answer = .finish workspace events answer := by
  simp only [Workspace.cleanUp, stale, Bool.false_eq_true, if_false]

section Continues

variable {surroundings : Surroundings} {workspace : Workspace} {staged : Staged}

private theorem continues_writing {purpose : Purpose} {success : Bool} :
    Continues surroundings workspace (.writing staged purpose) (.finished success)
      (workspace.afterWrite surroundings staged purpose success) := by
  cases success with
  | false => exact .unwritten
  | true =>
    cases current : workspace.isCurrent staged with
    | false =>
      simp only [Workspace.afterWrite, current, Bool.not_true, Bool.false_eq_true, Bool.not_false, if_false,
        if_true, Workspace.cleanUp_stale]
      exact .overtaken current
    | true =>
      simp only [Workspace.afterWrite, current, Bool.not_true, Bool.false_eq_true, if_false]
      cases purpose with
      | validation => exact .check current
      | completion position => exact .index (.inl ⟨rfl, current⟩) Indexing.start_events
      | hover position => exact .look current

private theorem continues_checking {result : Except Error (List Finding)} :
    Continues surroundings workspace (.checking staged) (.report result)
      (workspace.afterCheck surroundings staged result) := by
  cases result with
  | error error =>
    cases current : workspace.isCurrent staged with
    | false =>
      simp only [Workspace.afterCheck, Workspace.notifyIfCurrent, current, Bool.false_eq_true, if_false,
        Workspace.cleanUp_stale]
      exact .uncheckedStale current
    | true =>
      simp only [Workspace.afterCheck, Workspace.notifyIfCurrent, current, if_true, Workspace.cleanUp_current]
      exact .unchecked current
  | ok findings =>
    cases current : workspace.isCurrent staged with
    | false =>
      simp only [Workspace.afterCheck, current, Bool.not_false, if_true, Workspace.cleanUp_stale]
      exact .checkedStale current
    | true =>
      simp only [Workspace.afterCheck, current, Bool.not_true, Bool.false_eq_true, if_false,
        Workspace.cleanUp_current]
      exact .checked current rfl

private theorem continues_resolving {value : Json} {result : Except Error Ty} :
    Continues surroundings workspace (.resolving staged value) (.resolved result)
      (workspace.afterResolve staged value result) := by
  cases result with
  | error error =>
    cases current : workspace.isCurrent staged with
    | false =>
      simp only [Workspace.afterResolve, Workspace.notifyIfCurrent, current, Bool.false_eq_true, if_false]
      exact .unresolvedStale current
    | true =>
      simp only [Workspace.afterResolve, Workspace.notifyIfCurrent, current, if_true]
      exact .unresolved current
  | ok type =>
    cases current : workspace.isCurrent staged with
    | false =>
      simp only [Workspace.afterResolve, current, Bool.not_false, if_true]
      exact .resolvedStale current
    | true =>
      simp only [Workspace.afterResolve, current, Bool.not_true, Bool.false_eq_true, if_false]
      exact .resolved current rfl

/-- A request that gets a fitting reply goes on in one of the ways that are listed. -/
theorem Request.continues {request : Request} {call : Call} {reply : Reply}
    (calls : request.call? = some call) (fits : reply.fits call = true) :
    Continues surroundings workspace request reply (request.resume surroundings workspace reply) := by
  cases request with
  | writing staged purpose =>
    cases calls
    cases reply <;> first | exact continues_writing | exact (Bool.false_ne_true fits).elim
  | checking staged =>
    cases calls
    cases reply <;> first | exact continues_checking | exact (Bool.false_ne_true fits).elim
  | resolving staged value =>
    cases calls
    cases reply <;> first | exact continues_resolving | exact (Bool.false_ne_true fits).elim
  | indexing staged position wait step =>
    cases calls
    cases reply with
    | finished success => exact .index (.inr ⟨step, rfl⟩) (Indexing.resume_events step)
    | _ => cases step <;> exact (Bool.false_ne_true fits).elim
  | completing staged position =>
    cases calls
    cases reply <;> first | exact .suggested | exact (Bool.false_ne_true fits).elim
  | hovering staged position =>
    cases calls
    cases reply <;> first | exact .looked | exact (Bool.false_ne_true fits).elim
  | removing staged answer =>
    cases calls
    cases reply <;> first | exact .removed | exact (Bool.false_ne_true fits).elim
  | completingUntagged id position =>
    cases calls
    cases reply <;> first | exact .answered | exact (Bool.false_ne_true fits).elim
  | finished answer => cases calls

end Continues
end TypedJson
