import TypedJson.Proofs.Run.Known
import TypedJson.Proofs.Run.Untagged

/-! # Requests that share no key

Requests share what is kept under a key: the tickets of an artifact or of a document, the paths that have
been indexed, and the untagged documents on which someone asks. `Alike` relates a run to the run in which
only the requests of one class take part. Numbers of tickets differ between the two, since all keys draw
from one counter, but which ticket of a key is current does not.
-/

namespace TypedJson

/-- The same request with another number on its ticket. -/
def Staged.retoken (token : ℕ) (staged : Staged) : Staged :=
  { staged with ticket := ⟨staged.ticket.key, token⟩ }

/-- The same request with another number on its ticket, if it has one. -/
def Request.retoken (token : ℕ) : Request → Request
  | writing staged purpose => writing (staged.retoken token) purpose
  | checking staged => checking (staged.retoken token)
  | resolving staged value => resolving (staged.retoken token) value
  | indexing staged position wait step => indexing (staged.retoken token) position wait step
  | completing staged position => completing (staged.retoken token) position
  | hovering staged position => hovering (staged.retoken token) position
  | removing staged answer => removing (staged.retoken token) answer
  | completingUntagged id position => completingUntagged id position
  | finished answer => finished answer

namespace Request

variable {token : ℕ} {request : Request}

@[simp] theorem call?_retoken : (request.retoken token).call? = request.call? := by cases request <;> rfl

@[simp] theorem staged?_retoken : (request.retoken token).staged? = request.staged?.map (Staged.retoken token) := by
  cases request <;> rfl

@[simp] theorem asksOn?_retoken : (request.retoken token).asksOn? = request.asksOn? := by cases request <;> rfl

theorem remaining_retoken : Run.remaining (request.retoken token) = (Run.remaining request).map (retoken token) := by
  cases request <;> rfl

end Request

namespace Indexing

variable {surroundings : Surroundings} {wait : IndexWait} {indexed other : IndexedSet} {path : Path}

/-- The beginning depends on the set only by whether it has the path. -/
theorem start_congr (known : other.contains path.components = indexed.contains path.components) :
    (start surroundings other path).events = (start surroundings indexed path).events ∧
      (start surroundings other path).next = (start surroundings indexed path).next := by
  unfold start
  rw [known]
  split
  · exact ⟨rfl, rfl⟩
  · split <;> exact ⟨rfl, rfl⟩

theorem poll_congr {waited : ℕ} :
    (poll surroundings wait other path waited).events = (poll surroundings wait indexed path waited).events ∧
      (poll surroundings wait other path waited).next = (poll surroundings wait indexed path waited).next := by
  unfold poll
  split
  · split <;> exact ⟨rfl, rfl⟩
  · exact ⟨rfl, rfl⟩

/-- What follows does not depend on the set. -/
theorem resume_congr {success : Bool} (step : Indexing) :
    (step.resume surroundings wait other path success).events =
        (step.resume surroundings wait indexed path success).events ∧
      (step.resume surroundings wait other path success).next =
        (step.resume surroundings wait indexed path success).next := by
  cases step with
  | opening =>
    simp only [resume]
    split
    · exact poll_congr
    · exact ⟨rfl, rfl⟩
  | sleeping waited => exact poll_congr
  | closing => exact ⟨rfl, rfl⟩

end Indexing

/-- Two stretches do the same and end alike, but for the number on the ticket. -/
structure Turn.Alike (token : ℕ) (turn other : Turn) : Prop where
  events : other.events = turn.events
  request : other.request = turn.request.retoken token

/-- Two workspaces look the same to a request that has another number on its ticket in the second one. -/
structure Workspace.Alike (token : ℕ) (staged : Staged) (workspace other : Workspace) : Prop where
  configuration : other.configuration = workspace.configuration
  current : other.isCurrent (staged.retoken token) = workspace.isCurrent staged

section Alike

variable {workspace other : Workspace} {surroundings : Surroundings} {token : ℕ} {staged : Staged}
  {events : List Event} {answer : Answer} {request : Request}

theorem Turn.Alike.finish : Turn.Alike token (.finish workspace events answer) (.finish other events answer) :=
  ⟨rfl, rfl⟩

theorem Turn.Alike.await (request : Request) :
    Turn.Alike token (.await workspace events request) (.await other events (request.retoken token)) :=
  ⟨by rw [Turn.await, Request.call?_retoken]; rfl, rfl⟩

namespace Workspace.Alike

theorem cleanUp (alike : workspace.Alike token staged other) :
    Turn.Alike token (workspace.cleanUp staged events answer)
      (other.cleanUp (staged.retoken token) events answer) := by
  unfold Workspace.cleanUp
  rw [alike.current]
  split
  · exact .await (.removing staged answer)
  · exact .finish

theorem notifyIfCurrent (alike : workspace.Alike token staged other) (message : String) :
    other.notifyIfCurrent (staged.retoken token) message = workspace.notifyIfCurrent staged message := by
  rw [Workspace.notifyIfCurrent, alike.current]
  rfl

theorem afterIndexing {position : Position} {wait : IndexWait} {stretch stretch' : Indexing.Stretch}
    (same : stretch'.events = stretch.events ∧ stretch'.next = stretch.next) :
    Turn.Alike token (workspace.afterIndexing staged position wait stretch)
      (other.afterIndexing (staged.retoken token) position wait stretch') := by
  unfold Workspace.afterIndexing
  rw [same.1, same.2]
  cases stretch.next with
  | some step => exact ⟨rfl, rfl⟩
  | none => exact .await (.completing staged position)

/-- After a write it matters whether the artifact is indexed, if suggestions are asked for. -/
theorem afterWrite (alike : workspace.Alike token staged other) {purpose : Purpose} {success : Bool}
    (known : ∀ position, purpose = .completion position →
      other.indexed.contains staged.artifact.path.components =
        workspace.indexed.contains staged.artifact.path.components) :
    Turn.Alike token (workspace.afterWrite surroundings staged purpose success)
      (other.afterWrite surroundings (staged.retoken token) purpose success) := by
  unfold Workspace.afterWrite
  rw [alike.current, alike.configuration]
  split
  · exact .finish
  · split
    · exact alike.cleanUp
    · cases purpose with
      | validation => exact .await (.checking staged)
      | hover position => exact .await (.hovering staged position)
      | completion position => exact afterIndexing (Indexing.start_congr (known position rfl))

theorem afterCheck (alike : workspace.Alike token staged other) {result : Except Error (List Finding)} :
    Turn.Alike token (workspace.afterCheck surroundings staged result)
      (other.afterCheck surroundings (staged.retoken token) result) := by
  unfold Workspace.afterCheck
  cases result with
  | error error =>
    simp only [alike.notifyIfCurrent]
    exact alike.cleanUp
  | ok findings =>
    simp only [alike.current, alike.configuration]
    split
    · exact alike.cleanUp
    · exact alike.cleanUp

theorem afterResolve (alike : workspace.Alike token staged other) {value : Json} {result : Except Error Ty} :
    Turn.Alike token (workspace.afterResolve staged value result)
      (other.afterResolve (staged.retoken token) value result) := by
  unfold Workspace.afterResolve
  cases result with
  | error error =>
    simp only [alike.notifyIfCurrent]
    exact .finish
  | ok type =>
    simp only [alike.current, alike.configuration]
    split
    · exact .finish
    · exact .finish

end Workspace.Alike

/-- A request goes on in the same way in workspaces that look the same to it. -/
theorem Request.resume_alike {reply : Reply}
    (alike : ∀ staged, request.staged? = some staged → workspace.Alike token staged other)
    (known : ∀ staged position, request = .writing staged (.completion position) →
      other.indexed.contains staged.artifact.path.components =
        workspace.indexed.contains staged.artifact.path.components) :
    Turn.Alike token (request.resume surroundings workspace reply)
      ((request.retoken token).resume surroundings other reply) := by
  cases request with
  | writing staged purpose =>
    have alike := alike staged rfl
    have known (position : Position) (completes : purpose = .completion position) :=
      known staged position (congrArg _ completes)
    cases reply <;> first | exact alike.afterWrite known | exact ⟨rfl, rfl⟩
  | checking staged =>
    have alike := alike staged rfl
    cases reply <;> first | exact alike.afterCheck | exact ⟨rfl, rfl⟩
  | resolving staged value =>
    have alike := alike staged rfl
    cases reply <;> first | exact alike.afterResolve | exact ⟨rfl, rfl⟩
  | indexing staged position wait step =>
    cases reply with
    | finished success => exact Workspace.Alike.afterIndexing (Indexing.resume_congr step)
    | _ => exact ⟨rfl, rfl⟩
  | completing staged position =>
    have alike := alike staged rfl
    cases reply <;> first | exact alike.cleanUp | exact ⟨rfl, rfl⟩
  | hovering staged position =>
    have alike := alike staged rfl
    cases reply <;> first | exact alike.cleanUp | exact ⟨rfl, rfl⟩
  | removing staged answer => cases reply <;> exact ⟨rfl, rfl⟩
  | completingUntagged id position => cases reply <;> exact ⟨rfl, rfl⟩
  | finished answer => cases reply <;> exact ⟨rfl, rfl⟩

/-- A request draws the same ticket from either workspace, but for its number. -/
theorem Demand.staged_retoken (configured : other.configuration = workspace.configuration) (demand : Demand)
    (tag : TypeTag) : demand.staged other tag =
      (demand.staged workspace tag).retoken ((other.gate demand.mode).issued + 1) := by
  simp only [Demand.staged, Staged.retoken, configured]

/-- A request begins in the same way in workspaces that agree about where it is turned away. -/
theorem Demand.start_alike (demand : Demand) (configured : other.configuration = workspace.configuration)
    (listed : ∀ document position, demand = .complete document position →
      TypeTag.ofText? document.text.toList = none →
      other.completing.contains document.id.components = workspace.completing.contains document.id.components) :
    ∃ token, Turn.Alike token (demand.start workspace) (demand.start other) := by
  refine ⟨(other.gate demand.mode).issued + 1, ?_⟩
  cases json : demand.document.isJson with
  | false =>
    cases demand <;> simp only [Demand.document] at json <;>
      simp only [start, Workspace.validate, Workspace.complete, Workspace.hover, json, Bool.not_false, if_true] <;>
      exact .finish
  | true =>
    cases tagged : TypeTag.ofText? demand.document.text.toList with
    | none =>
      have staging := stage_eq_none workspace tagged
      have staging' := stage_eq_none other tagged
      cases demand with
      | validate mode document =>
        simp only [Demand.document, Demand.mode] at json staging staging'
        simp only [start, Workspace.validate, json, staging, staging']
        exact .finish
      | hover document position =>
        simp only [Demand.document, Demand.mode] at json staging staging'
        simp only [start, Workspace.hover, json, staging, staging']
        exact .finish
      | complete document position =>
        have listed := listed document position rfl tagged
        simp only [Demand.document, Demand.mode] at json staging staging'
        simp only [start, Workspace.complete, json, staging, staging', listed]
        split
        · exact .finish
        · split
          · exact .finish
          · exact ⟨rfl, rfl⟩
    | some tag =>
      have staging := stage_eq workspace tagged
      have staging' := stage_eq other tagged
      have current := (draws workspace json tagged).isCurrent
      have current' := (draws other json tagged).isCurrent
      rw [staged_retoken configured] at staging' current'
      generalize demand.staged workspace tag = staged at staging staging' current current'
      cases demand with
      | validate mode document =>
        simp only [Demand.document, Demand.mode] at json staging staging' current current'
        simp only [start, Workspace.validate, json, staging, staging', Bool.not_true, Bool.false_eq_true, if_false]
        cases Json.ofText document.text.toList with
        | error fault =>
          simp only [Workspace.notifyIfCurrent, current, current', if_true]
          exact .finish
        | ok value =>
          cases mode with
          | checker =>
            simp only [Workspace.writeArtifact, current, current', if_true]
            exact .await (.writing staged .validation)
          | matcher =>
            simp only [current, current', if_true]
            exact .await (.resolving staged value)
      | complete document position =>
        simp only [Demand.document, Demand.mode] at json staging staging' current current'
        simp only [start, Workspace.complete, json, staging, staging', Bool.not_true, Bool.false_eq_true, if_false,
          Workspace.writeArtifact, current, current', if_true]
        exact .await (.writing staged (.completion position))
      | hover document position =>
        simp only [Demand.document, Demand.mode] at json staging staging' current current'
        simp only [start, Workspace.hover, json, staging, staging', Bool.not_true, Bool.false_eq_true, if_false,
          Workspace.writeArtifact, current, current', if_true]
        exact .await (.writing staged (.hover position))

end Alike

/-- What a request shares with others: an artifact, a document in the mode that only compares structure, or a
document without a tag on which one of them asks for suggestions. -/
inductive KeyClass where
  | artifact (path : List Component)
  | document (id : List Component)
  | untagged (id : List Component)
  deriving DecidableEq

/-- The class of the requests in a lane. -/
def Lane.keyClass : Lane → KeyClass
  | ⟨.checker, key⟩ => .artifact key
  | ⟨.matcher, key⟩ => .document key

/-- The text of the document has a tag. -/
def Document.isTagged (document : Document) : Bool := (TypeTag.ofText? document.text.toList).isSome

/-- The class of a request, if it shares anything with others. -/
def Demand.keyClass? (configuration : Configuration) : Demand → Option KeyClass
  | validate .checker document => some (.artifact (keyFor configuration document.id .checker))
  | validate .matcher document => some (.document (keyFor configuration document.id .matcher))
  | complete document _ =>
    some (if document.isTagged then .artifact (keyFor configuration document.id .checker)
      else .untagged document.id.components)
  | hover document _ =>
    if document.isTagged then some (.artifact (keyFor configuration document.id .checker)) else none

theorem Demand.keyClass?_of_lane? {configuration : Configuration} {demand : Demand} {lane : Lane}
    (laned : demand.lane? configuration = some lane) : demand.keyClass? configuration = some lane.keyClass := by
  obtain ⟨-, tagged, rfl⟩ := lane?_eq_some_iff.mp laned
  cases demand with
  | validate mode document => cases mode <;> rfl
  | complete document position | hover document position =>
    have tagged : document.isTagged = true := tagged
    simp [keyClass?, tagged, Demand.mode, Demand.document, Lane.keyClass]

/-- A request that asks on a document without a tag is in the class of that document. -/
theorem Lived.keyClass?_of_asking {configuration : Configuration} {id : ℕ} {demand : Demand}
    {entries : List Run.Entry} {path : Path} {position : Position}
    (lived : Lived configuration id demand entries (some (.completingUntagged path position))) :
    demand.keyClass? configuration = some (.untagged path.components) := by
  obtain ⟨workspace, turn, -, starts, asks, -⟩ := lived.of_isFirst rfl
  cases starts with
  | ask unlaned json free =>
    cases asks
    have untagged := (Demand.lane?_eq_none_iff.mp unlaned).resolve_left (by simp [Demand.document, json])
    simp only [Demand.document] at untagged
    simp [Demand.keyClass?, Document.isTagged, untagged]
  | _ => cases asks

@[simp] theorem Request.learned_retoken {token : ℕ} {indexed : IndexedSet} {request : Request} :
    (request.retoken token).learned indexed = request.learned indexed := by
  cases request with
  | indexing staged position wait step => cases step <;> rfl
  | _ => rfl

theorem Request.contains_learned_congr {indexed other : IndexedSet} {key : List Component} {request : Request}
    (same : other.contains key = indexed.contains key) :
    (request.learned other).contains key = (request.learned indexed).contains key := by
  cases request with
  | indexing staged position wait step =>
    cases step with
    | closing =>
      rw [Bool.eq_iff_iff, List.contains_iff_mem, List.contains_iff_mem] at same ⊢
      simp only [learned, List.mem_insert_iff, same]
    | _ => exact same
  | _ => exact same

namespace Run

variable {configuration : Configuration} {shared : KeyClass} {ids : List ℕ} {run part : Run} {id : ℕ}
  {record : List Entry} {request : Request} {token : ℕ} {staged : Staged} {turn turn' : Turn} {heading : Entry}

/-- The request that a step is about. -/
def Action.actor : Action → ℕ
  | .begin id _ | .reply id _ _ | .drop id => id

/-- The names are those of the requests of a class. -/
def Sorts (configuration : Configuration) (shared : KeyClass) (ids : List ℕ) (record : List Entry) : Prop :=
  ∀ id demand, .began id demand ∈ record → (id ∈ ids ↔ demand.keyClass? configuration = some shared)

/-- In the second run only the requests of a class take part, and they do there what they do in the first. -/
structure Alike (shared : KeyClass) (ids : List ℕ) (run part : Run) : Prop where
  record : part.record = run.record.filter (·.actor ∈ ids)
  waiting : ∀ id ∈ ids, ∃ token, part.waiting id = (run.waiting id).map (Request.retoken token)
  indexed : ∀ key, shared = .artifact key →
    part.workspace.indexed.contains key = run.workspace.indexed.contains key

theorem alike_empty : Alike shared ids (empty configuration) (empty configuration) where
  record := rfl
  waiting := fun _ _ => ⟨0, rfl⟩
  indexed := fun _ _ => rfl

theorem trail_alike (alike : turn.Alike token turn') : trail id turn' = trail id turn := by
  rw [trail, trail, alike.events, alike.request]
  cases turn.request <;> rfl

/-- The same requests enter a lane of the class in both runs. -/
theorem newest?_among (sorts : Sorts configuration shared ids record) {lane : Lane}
    (own : lane.keyClass = shared) :
    newest? configuration lane (record.filter (·.actor ∈ ids)) = newest? configuration lane record := by
  have entering : entrants configuration lane (record.filter (·.actor ∈ ids)) =
      entrants configuration lane record := by
    rw [entrants, List.filterMap_filter]
    apply List.filterMap_congr
    intro entry member
    split
    case isTrue => rfl
    case isFalse foreign =>
      cases entry with
      | began id demand =>
        refine (if_neg fun laned => foreign (decide_eq_true ?_)).symm
        exact (sorts id demand member).mpr (own ▸ Demand.keyClass?_of_lane? laned)
      | _ => rfl
  rw [newest?, entering, ← newest?]

/-- A member of the class sees the same workspace in both runs, but for the number on its ticket. -/
theorem Alike.workspace (alike : Alike shared ids run part) (ordered : Ordered configuration run)
    (ordered' : Ordered configuration part) (sorts : Sorts configuration shared ids run.record)
    (member : id ∈ ids) (waits : run.waiting id = some request)
    (waits' : part.waiting id = some (request.retoken token)) (works : request.staged? = some staged) :
    Workspace.Alike token staged run.workspace part.workspace where
  configuration := ordered'.configured.trans ordered.configured.symm
  current := by
    obtain ⟨demand, began, serves⟩ := ordered.begun id request waits
    have own : staged.lane.keyClass = shared := Option.some.inj
      ((Demand.keyClass?_of_lane? (serves.staged staged works).lane).symm.trans ((sorts id demand began).mp member))
    have newest := ordered'.current id _ (staged.retoken token) waits' (by simp [works])
    rw [alike.record] at newest
    rw [Bool.eq_iff_iff, newest, ordered.current id request staged waits works]
    exact Eq.congr (newest?_among sorts own) rfl

/-- A request that asks for suggestions on an artifact is in the class of the artifact. -/
theorem Ordered.keyClass?_of_completion (ordered : Ordered configuration run) {demand : Demand}
    (began : .began id demand ∈ run.record) (waits : run.waiting id = some request) {position : Position}
    (completes : request.aim? = some (some (.completion position))) (works : request.staged? = some staged) :
    demand.keyClass? configuration = some (.artifact staged.artifact.path.components) := by
  have serves := ordered.serves began waits
  have served := serves.staged staged works
  have mode : staged.mode = .checker := by
    rw [served.mode]
    exact Demand.mode_of_purpose? (by rw [serves.aim _ completes]; rfl)
  rw [Demand.keyClass?_of_lane? served.lane, served.lane_eq mode]
  rfl

/-- A request adds no path to the indexed ones but that of an artifact of its own class. -/
theorem Ordered.contains_learned (ordered : Ordered configuration run) {demand : Demand}
    (began : .began id demand ∈ run.record) (waits : run.waiting id = some request) {key : List Component}
    (foreign : demand.keyClass? configuration ≠ some (.artifact key)) :
    (request.learned run.workspace.indexed).contains key = run.workspace.indexed.contains key := by
  cases request with
  | indexing staged position wait step =>
    cases step with
    | closing =>
      have other : staged.artifact.path.components ≠ key := by
        rintro rfl
        exact foreign (ordered.keyClass?_of_completion began waits rfl rfl)
      simp [Request.learned, other.symm]
    | _ => rfl
  | _ => rfl

theorem keyClass?_of_asking (configuration : Configuration) (actions : List Action) {key : List Component}
    {demand : Demand} (began : .began id demand ∈ (after configuration actions).record)
    (asks : (after configuration actions).asking id = some key) :
    demand.keyClass? configuration = some (.untagged key) := by
  obtain ⟨request, waits, asks⟩ := Option.bind_eq_some_iff.mp asks
  obtain ⟨left, lives⟩ := lives_after configuration actions began
  obtain rfl := lives.waits request waits
  cases request <;> cases asks
  exact lives.lived.keyClass?_of_asking

theorem Alike.follow_member (alike : Alike shared ids run part) (member : id ∈ ids) (own : heading.actor = id)
    (turns : turn.Alike token turn')
    (indexed : ∀ key, shared = .artifact key →
      turn'.workspace.indexed.contains key = turn.workspace.indexed.contains key) :
    Alike shared ids (run.follow id heading turn) (part.follow id heading turn') where
  record := by
    rw [filter_actor_follow (· ∈ ids) own, if_pos (decide_eq_true member), ← alike.record, follow,
      trail_alike turns]
  waiting := by
    intro other present
    by_cases same : other = id
    · subst same
      refine ⟨token, ?_⟩
      rw [waiting_follow, waiting_follow, turns.request, Request.remaining_retoken]
    · obtain ⟨token, waiting⟩ := alike.waiting other present
      refine ⟨token, ?_⟩
      rw [waiting_follow_of_ne same, waiting_follow_of_ne same, waiting]
  indexed := indexed

/-- What concerns no member of the class is nothing to the other run. -/
theorem Alike.foreign (alike : Alike shared ids run part) {next : Run}
    (record : next.record.filter (·.actor ∈ ids) = run.record.filter (·.actor ∈ ids))
    (waiting : ∀ other ∈ ids, next.waiting other = run.waiting other)
    (indexed : ∀ key, shared = .artifact key →
      next.workspace.indexed.contains key = run.workspace.indexed.contains key) : Alike shared ids next part where
  record := alike.record.trans record.symm
  waiting := by
    intro other present
    rw [waiting other present]
    exact alike.waiting other present
  indexed := fun key own => (alike.indexed key own).trans (indexed key own).symm

theorem Alike.follow_foreign (alike : Alike shared ids run part) (foreign : id ∉ ids) (own : heading.actor = id)
    (indexed : ∀ key, shared = .artifact key →
      turn.workspace.indexed.contains key = run.workspace.indexed.contains key) :
    Alike shared ids (run.follow id heading turn) part := by
  refine alike.foreign ?_ ?_ indexed
  · rw [filter_actor_follow (· ∈ ids) own, if_neg (by simpa using foreign), List.append_nil]
  · intro other present
    exact waiting_follow_of_ne (ne_of_mem_of_not_mem present foreign) ..

theorem Alike.abandon_member (alike : Alike shared ids run part) (member : id ∈ ids) :
    Alike shared ids (run.abandon id request) (part.abandon id (request.retoken token)) where
  record := by simp [abandon, alike.record, Entry.actor, member]
  waiting := by
    intro other present
    by_cases same : other = id
    · subst same
      exact ⟨0, by simp⟩
    · rw [waiting_abandon_of_ne same, waiting_abandon_of_ne same]
      exact alike.waiting other present
  indexed := by
    intro key own
    rw [abandon, abandon, Request.cancel_indexed, Request.cancel_indexed]
    exact alike.indexed key own

theorem Alike.abandon_foreign (alike : Alike shared ids run part) (foreign : id ∉ ids) :
    Alike shared ids (run.abandon id request) part := by
  refine alike.foreign ?_ ?_ ?_
  · simp [abandon, Entry.actor, foreign]
  · intro other present
    exact waiting_abandon_of_ne (ne_of_mem_of_not_mem present foreign) ..
  · intro key _
    rw [abandon, Request.cancel_indexed]

theorem Alike.mem_names_iff (alike : Alike shared ids run part) (member : id ∈ ids) :
    id ∈ names part.record ↔ id ∈ names run.record := by
  simp only [Run.mem_names_iff, alike.record, List.mem_filter, Entry.actor, member, decide_true, and_true]

section Steps

variable {actions more : List Action}

/-- Someone asks on the document of the class in both runs or in none. -/
theorem Alike.completing (alike : Alike shared ids (after configuration actions) (after configuration more))
    (sorts : Sorts configuration shared ids (after configuration actions).record) {key : List Component}
    (own : shared = .untagged key) : (after configuration more).workspace.completing.contains key =
      (after configuration actions).workspace.completing.contains key := by
  rw [Bool.eq_iff_iff, List.contains_iff_mem, List.contains_iff_mem,
    (attended_after configuration more).exact, (attended_after configuration actions).exact]
  -- a member asks in one run exactly if it asks in the other
  have same {id : ℕ} (member : id ∈ ids) :
      (after configuration more).asking id = (after configuration actions).asking id := by
    obtain ⟨token, waiting⟩ := alike.waiting id member
    rw [asking, asking, waiting]
    cases (after configuration actions).waiting id with
    | none => rfl
    | some request => exact Request.asksOn?_retoken
  constructor
  · rintro ⟨id, asks⟩
    obtain ⟨request, waits, -⟩ := Option.bind_eq_some_iff.mp asks
    obtain ⟨demand, began, -⟩ := (ordered_after configuration more).begun id request waits
    rw [alike.record] at began
    exact ⟨id, same (of_decide_eq_true (List.mem_filter.mp began).2) ▸ asks⟩
  · rintro ⟨id, asks⟩
    obtain ⟨request, waits, -⟩ := Option.bind_eq_some_iff.mp asks
    obtain ⟨demand, began, -⟩ := (ordered_after configuration actions).begun id request waits
    have member : id ∈ ids :=
      (sorts id demand began).mpr (own ▸ keyClass?_of_asking configuration actions began asks)
    exact ⟨id, (same member).trans asks⟩

/-- A member of the class takes its steps in both runs alike. -/
theorem Alike.step_member (alike : Alike shared ids (after configuration actions) (after configuration more))
    {action : Action} (member : action.actor ∈ ids)
    (sorts : Sorts configuration shared ids ((after configuration actions).step action).record) :
    Alike shared ids ((after configuration actions).step action) ((after configuration more).step action) := by
  have ordered := ordered_after configuration actions
  have ordered' := ordered_after configuration more
  have earlier : Sorts configuration shared ids (after configuration actions).record := fun id demand began =>
    sorts id demand ((record_prefix_step ..).subset began)
  cases action with
  | begin id demand =>
    have member : id ∈ ids := member
    by_cases fresh : id ∈ names (after configuration actions).record
    · rw [step, if_pos fresh, step, if_pos ((alike.mem_names_iff member).mpr fresh)]
      exact alike
    · rw [step_begin fresh] at sorts ⊢
      rw [step_begin (mt (alike.mem_names_iff member).mp fresh)]
      have own : demand.keyClass? configuration = some shared :=
        (sorts id demand (List.mem_append_right _ (List.mem_cons_self ..))).mp member
      obtain ⟨token, turns⟩ := demand.start_alike (ordered'.configured.trans ordered.configured.symm) (by
        rintro document position rfl untagged
        apply alike.completing earlier
        simpa [Demand.keyClass?, Document.isTagged, untagged, eq_comm] using own)
      refine alike.follow_member member rfl turns ?_
      intro key same
      rw [Demand.start_indexed, Demand.start_indexed]
      exact alike.indexed key same
  | reply id surroundings reply =>
    have member : id ∈ ids := member
    obtain ⟨token, waiting⟩ := alike.waiting id member
    cases waits : (after configuration actions).waiting id with
    | none =>
      rw [waits, Option.map_none] at waiting
      rw [step_reply_idle waits, step_reply_idle waiting]
      exact alike
    | some request =>
      rw [waits, Option.map_some] at waiting
      cases listened : request.call?.filter (reply.fits ·) with
      | none =>
        rw [step_reply_unheard waits listened, step_reply_unheard waiting (by rwa [Request.call?_retoken])]
        exact alike
      | some call =>
        obtain ⟨calls, fits⟩ := Option.filter_eq_some_iff.mp listened
        rw [step_reply waits calls fits, step_reply waiting (Request.call?_retoken.trans calls) fits]
        obtain ⟨demand, began, -⟩ := ordered.begun id request waits
        have own := (earlier id demand began).mp member
        have turns : Turn.Alike token (request.resume surroundings (after configuration actions).workspace reply)
            ((request.retoken token).resume surroundings (after configuration more).workspace reply) := by
          apply Request.resume_alike
          · intro staged works
            exact alike.workspace ordered ordered' earlier member waits waiting works
          · rintro staged position rfl
            apply alike.indexed
            exact Option.some.inj (own.symm.trans (ordered.keyClass?_of_completion began waits rfl rfl))
        refine alike.follow_member member rfl turns ?_
        intro key same
        rw [Request.resume_indexed calls fits, Request.resume_indexed (Request.call?_retoken.trans calls) fits,
          Request.learned_retoken]
        exact Request.contains_learned_congr (alike.indexed key same)
  | drop id =>
    have member : id ∈ ids := member
    obtain ⟨token, waiting⟩ := alike.waiting id member
    cases waits : (after configuration actions).waiting id with
    | none =>
      rw [waits, Option.map_none] at waiting
      rw [step_drop_idle waits, step_drop_idle waiting]
      exact alike
    | some request =>
      rw [waits, Option.map_some] at waiting
      rw [step_drop waits, step_drop waiting]
      exact alike.abandon_member member

/-- The steps of a request outside of the class change nothing for the class. -/
theorem Alike.step_foreign (alike : Alike shared ids (after configuration actions) (after configuration more))
    {action : Action} (foreign : action.actor ∉ ids)
    (sorts : Sorts configuration shared ids ((after configuration actions).step action).record) :
    Alike shared ids ((after configuration actions).step action) (after configuration more) := by
  have ordered := ordered_after configuration actions
  rcases step_eq_or_advances (after configuration actions) action with same | advances
  · rwa [same]
  have earlier : Sorts configuration shared ids (after configuration actions).record := fun id demand began =>
    sorts id demand ((record_prefix_step ..).subset began)
  generalize (after configuration actions).step action = next at advances sorts
  cases advances with
  | begin fresh =>
    refine alike.follow_foreign foreign rfl ?_
    intro key _
    rw [Demand.start_indexed]
  | @reply id request call surroundings reply waits calls fits =>
    obtain ⟨demand, began, -⟩ := ordered.begun id request waits
    refine alike.follow_foreign foreign rfl ?_
    rintro key rfl
    rw [Request.resume_indexed calls fits]
    exact ordered.contains_learned began waits (mt (earlier id demand began).mpr foreign)
  | drop waits => exact alike.abandon_foreign foreign

theorem alike_after (configuration : Configuration) (actions : List Action)
    (sorts : Sorts configuration shared ids (after configuration actions).record) :
    Alike shared ids (after configuration actions)
      (after configuration (actions.filter (·.actor ∈ ids))) := by
  induction actions using List.reverseRecOn with
  | nil => exact alike_empty
  | append_singleton actions action ih =>
    rw [after_concat] at sorts ⊢
    have alike := ih fun id demand began => sorts id demand ((record_prefix_step ..).subset began)
    rw [List.filter_append]
    by_cases member : action.actor ∈ ids
    · have kept : [action].filter (·.actor ∈ ids) = [action] := by simp [member]
      rw [kept, after_concat]
      exact alike.step_member member sorts
    · have left : [action].filter (·.actor ∈ ids) = [] := by simp [member]
      rw [left, List.append_nil]
      exact alike.step_foreign member sorts

end Steps

/-- The requests of a class, in the order in which they began. -/
def members (configuration : Configuration) (shared : KeyClass) (record : List Entry) : List ℕ :=
  record.filterMap fun
    | .began id demand => if demand.keyClass? configuration = some shared then some id else none
    | _ => none

theorem sorts_members (once : (names record).Nodup) :
    Sorts configuration shared (members configuration shared record) record := by
  intro id demand began
  constructor
  · intro member
    obtain ⟨entry, present, belongs⟩ := List.mem_filterMap.mp member
    cases entry <;> simp only [reduceCtorEq, Option.ite_none_right_eq_some, Option.some.injEq] at belongs
    obtain ⟨own, rfl⟩ := belongs
    exact began_unique once began present ▸ own
  · intro own
    exact List.mem_filterMap.mpr ⟨_, began, if_pos own⟩

/-- Requests of different classes do not interfere. If all steps of requests outside of a class are left out
of a run, the record has the same entries about the requests of the class in the same order, and each of them
waits for the reply to the same call. -/
theorem classes_do_not_interfere (configuration : Configuration) (actions : List Action) (shared : KeyClass) :
    let run := after configuration actions
    let ids := members configuration shared run.record
    let part := after configuration (actions.filter (·.actor ∈ ids))
    part.record = run.record.filter (·.actor ∈ ids) ∧
      ∀ id ∈ ids, about id part.record = about id run.record ∧
        (part.waiting id).bind Request.call? = (run.waiting id).bind Request.call? := by
  intro run ids part
  have alike : Alike shared ids run part :=
    alike_after configuration actions (sorts_members (ordered_after configuration actions).once)
  refine ⟨alike.record, ?_⟩
  intro id member
  constructor
  · rw [alike.record, about, List.filter_filter]
    apply List.filter_congr
    intro entry _
    by_cases own : entry.actor = id
    · simp [own, member]
    · simp [own]
  · obtain ⟨token, waiting⟩ := alike.waiting id member
    rw [waiting]
    cases run.waiting id with
    | none => rfl
    | some request => exact Request.call?_retoken

/-- A validation that compares structure takes its steps between those of one that asks the checker. -/
def besideMatcher : List Action :=
  [.begin 0 (.validate .checker sampleDocument), .begin 1 (.validate .matcher extendedDocument),
    .reply 0 sampleSurroundings (.finished true), .drop 1]

/-- The validation that asks the checker has got as far as it gets alone. -/
theorem classes_do_not_interfere_beside :
    ∃ ids : List ℕ, 0 ∈ ids ∧ besideMatcher.filter (·.actor ∈ ids) =
        [.begin 0 (.validate .checker sampleDocument), .reply 0 sampleSurroundings (.finished true)] ∧
      about 0 (after .default (besideMatcher.filter (·.actor ∈ ids))).record =
        about 0 (after .default besideMatcher).record := by
  obtain ⟨ids, named⟩ : ∃ ids, ids = members .default
      (.artifact (Demand.keyFor .default sampleDocument.id .checker)) (after .default besideMatcher).record :=
    ⟨_, rfl⟩
  have only : ids = [0] := by
    rw [named]
    decide +kernel
  have member : 0 ∈ ids := by simp [only]
  have same := (classes_do_not_interfere .default besideMatcher
    (.artifact (Demand.keyFor .default sampleDocument.id .checker))).2 0 (named ▸ member)
  rw [← named] at same
  refine ⟨ids, member, ?_, same.1⟩
  simp [besideMatcher, Action.actor, only]

end Run
end TypedJson
