import TypedJson.Proofs.Run.Inquiry
import TypedJson.Proofs.Run.Known

/-! # The view of a request

Before a request asks for suggestions on an artifact, it sees to it that the artifact is indexed. It opens a view
unless a view has been closed before or the language service says that one is open, waits, and closes the view.
`Approaches` lists the stretches in which this happens, and `Viewing` follows one request through them: it opens
at most one view.
-/

namespace TypedJson

/-- A view is opened, or suggestions are asked for. -/
def Event.approaches : Event → Bool
  | called (.openView _) | called (.completions _ _) => true
  | _ => false

/-- Neither the artifact nor a view of it is waited for. -/
def Request.isSettled : Request → Bool
  | writing _ _ | indexing _ _ _ _ => false
  | _ => true

/-- The stretches of requests, as far as they open and close views and ask for suggestions. -/
inductive Approaches (surroundings : Surroundings) (workspace : Workspace) : Request → Reply → Turn → Prop
  | known {staged : Staged} {position : Position}
      (closed : workspace.indexed.contains staged.artifact.path.components = true) :
      Approaches surroundings workspace (.writing staged (.completion position)) (.finished true)
        (.await workspace [] (.completing staged position))
  | held {staged : Staged} {position : Position}
      (unclosed : workspace.indexed.contains staged.artifact.path.components = false)
      (told : surroundings.isOpen staged.artifact.path = true) :
      Approaches surroundings workspace (.writing staged (.completion position)) (.finished true)
        (.await workspace [.askedOpen staged.artifact.path] (.completing staged position))
  | opens {staged : Staged} {position : Position} {wait : IndexWait}
      (unclosed : workspace.indexed.contains staged.artifact.path.components = false)
      (told : surroundings.isOpen staged.artifact.path = false) :
      Approaches surroundings workspace (.writing staged (.completion position)) (.finished true)
        (.await workspace [.askedOpen staged.artifact.path] (.indexing staged position wait .opening))
  | unopenable {staged : Staged} {position : Position} {wait : IndexWait} :
      Approaches surroundings workspace (.indexing staged position wait .opening) (.finished false)
        (.await workspace [] (.completing staged position))
  | waits {staged : Staged} {position : Position} {wait : IndexWait} {step next : Indexing} {success : Bool}
      {events : List Event} (goes : step = .opening ∧ success = true ∨ ∃ waited, step = .sleeping waited)
      (later : next ≠ .opening) (quiet : ∀ event ∈ events, event.approaches = false) :
      Approaches surroundings workspace (.indexing staged position wait step) (.finished success)
        ⟨workspace, events, .indexing staged position wait next⟩
  | closed {staged : Staged} {position : Position} {wait : IndexWait} {success : Bool} {after : Workspace} :
      Approaches surroundings workspace (.indexing staged position wait .closing) (.finished success)
        (.await after [] (.completing staged position))
  | aside {request : Request} {reply : Reply} {turn : Turn}
      (unviewed : ∀ staged position wait step, request ≠ .indexing staged position wait step)
      (quiet : ∀ event ∈ turn.events, event.approaches = false) (settled : turn.request.isSettled = true) :
      Approaches surroundings workspace request reply turn

section Approaches

variable {surroundings : Surroundings} {workspace : Workspace} {staged : Staged}

private theorem quiet_cleanUp {events : List Event} {answer : Answer}
    (quiet : ∀ event ∈ events, event.approaches = false) :
    (∀ event ∈ (workspace.cleanUp staged events answer).events, event.approaches = false) ∧
      (workspace.cleanUp staged events answer).request.isSettled = true := by
  cases current : workspace.isCurrent staged with
  | true =>
    rw [Workspace.cleanUp_current current]
    refine ⟨fun event member => ?_, rfl⟩
    rcases List.mem_append.mp member with early | last
    · exact quiet event early
    · cases List.mem_singleton.mp last
      rfl
  | false =>
    rw [Workspace.cleanUp_stale current]
    exact ⟨quiet, rfl⟩

private theorem approaches_writing {purpose : Purpose} {success : Bool} :
    Approaches surroundings workspace (.writing staged purpose) (.finished success)
      (workspace.afterWrite surroundings staged purpose success) := by
  cases success with
  | false => exact .aside (by simp) (by simp [Workspace.afterWrite, Turn.finish]) rfl
  | true =>
    cases current : workspace.isCurrent staged with
    | false =>
      simp only [Workspace.afterWrite, current, Bool.not_true, Bool.false_eq_true, Bool.not_false, if_false,
        if_true, Workspace.cleanUp_stale]
      exact .aside (by simp) (by simp [Turn.finish]) rfl
    | true =>
      simp only [Workspace.afterWrite, current, Bool.not_true, Bool.false_eq_true, if_false]
      cases purpose with
      | validation | hover position =>
        exact .aside (by simp) (by simp [Turn.await, Request.call?, Event.approaches]) rfl
      | completion position =>
        simp only [Indexing.start]
        cases closed : workspace.indexed.contains staged.artifact.path.components with
        | true => exact .known closed
        | false =>
          cases told : surroundings.isOpen staged.artifact.path with
          | true => exact .held closed told
          | false => exact .opens closed told

private theorem approaches_poll {position : Position} {wait : IndexWait} {step : Indexing} {success : Bool}
    {waited : ℕ} (goes : step = .opening ∧ success = true ∨ ∃ waited, step = .sleeping waited) :
    Approaches surroundings workspace (.indexing staged position wait step) (.finished success)
      (workspace.afterIndexing staged position wait
        (Indexing.poll surroundings wait workspace.indexed staged.artifact.path waited)) := by
  unfold Indexing.poll
  split
  · split
    · exact .waits goes nofun (by simp [Indexing.giveUp, Event.approaches])
    · exact .waits goes nofun (by simp [Event.approaches])
  · exact .waits goes nofun (by simp [Indexing.giveUp, Event.approaches])

private theorem approaches_indexing {position : Position} {wait : IndexWait} {step : Indexing} {success : Bool} :
    Approaches surroundings workspace (.indexing staged position wait step) (.finished success)
      (workspace.afterIndexing staged position wait
        (step.resume surroundings wait workspace.indexed staged.artifact.path success)) := by
  cases step with
  | opening =>
    cases success with
    | false => exact .unopenable
    | true => exact approaches_poll (.inl ⟨rfl, rfl⟩)
  | sleeping waited => exact approaches_poll (.inr ⟨waited, rfl⟩)
  | closing => exact .closed

/-- A request that gets a fitting reply goes on in one of these ways. -/
theorem Request.approaches {request : Request} {call : Call} {reply : Reply}
    (calls : request.call? = some call) (fits : reply.fits call = true) :
    Approaches surroundings workspace request reply (request.resume surroundings workspace reply) := by
  have continues : Continues surroundings workspace request reply _ := Request.continues calls fits
  generalize goes : request.resume surroundings workspace reply = turn at continues
  cases continues with
  | index before =>
    rw [← goes]
    rcases before with ⟨rfl, -⟩ | ⟨step, rfl⟩
    · cases calls
      cases reply with
      | finished success => exact approaches_writing
      | _ => cases fits
    · cases calls
      cases reply with
      | finished success => exact approaches_indexing
      | _ => cases step <;> cases fits
  | suggested | looked => exact .aside (by simp) (quiet_cleanUp (by simp)).1 (quiet_cleanUp (by simp)).2
  | checked =>
    refine .aside (by simp) (fun event member => ?_) rfl
    simp only [Turn.await, Staged.publication, List.mem_append, List.mem_map, List.mem_singleton, Request.call?,
      Option.toList_some, List.map_cons, List.map_nil] at member
    rcases member with (⟨message, -, rfl⟩ | rfl) | rfl <;> rfl
  | _ => exact .aside (by simp) (by simp [Turn.await, Turn.finish, Request.call?, Event.approaches]) rfl

end Approaches

/-- A request opens no view in its first stretch. -/
theorem Starts.unopened {workspace : Workspace} {demand : Demand} {turn : Turn}
    (starts : Starts workspace demand turn) (path : Path) : .called (.openView path) ∉ turn.events := by
  intro called
  have waits := starts.call?_of_called called
  cases starts <;> cases waits

namespace Run

variable {id : ℕ} {demand : Demand} {path : Path}
  {record entries : List Entry} {heading : Entry} {turn : Turn} {left : Option Request}

/-- An entry about a view: it is to be opened, this has been tried, or it has been closed. -/
def Entry.isView : Entry → Bool
  | .did _ (.called (.openView _)) | .returned _ (.openView _) _ | .returned _ (.closeView _) _ => true
  | _ => false

/-- What the record tells about the views of a request. -/
def views (id : ℕ) (record : List Entry) : List Entry := (about id record).filter Entry.isView

theorem mem_views_iff {entry : Entry} :
    entry ∈ views id record ↔ entry ∈ record ∧ entry.actor = id ∧ entry.isView = true := by
  simp [views, about, and_comm]

theorem views_follow {run : Run} (own : heading.actor = id) :
    views id (run.follow id heading turn).record =
      views id run.record ++ (heading :: trail id turn).filter Entry.isView := by
  rw [views, about_follow own, List.filter_append, ← views]

/-- The replies for which requests wait are about views only while an artifact gets indexed. -/
theorem isView_returned {request : Request} {call : Call} {success : Bool}
    (unviewed : ∀ staged position wait step, request ≠ .indexing staged position wait step)
    (calls : request.call? = some call) : (Entry.returned id call success).isView = false := by
  cases request with
  | indexing staged position wait step => exact (unviewed staged position wait step rfl).elim
  | finished => cases calls
  | _ =>
    cases calls
    rfl

/-- A stretch in which no view is opened tells nothing about views. -/
theorem filter_isView_trail (unopened : ∀ path, .called (.openView path) ∉ turn.events) :
    (trail id turn).filter Entry.isView = [] := by
  rw [List.filter_eq_nil_iff]
  intro entry member view
  rcases List.mem_append.mp member with happened | last
  · obtain ⟨event, present, rfl⟩ := List.mem_map.mp happened
    unfold Entry.isView at view
    split at view <;> simp_all
  · cases finished : turn.request <;> simp only [finished, List.not_mem_nil, List.mem_singleton] at last
    subst last
    cases view

theorem unopened_of_quiet {events : List Event} (quiet : ∀ event ∈ events, event.approaches = false)
    (path : Path) : .called (.openView path) ∉ events := fun member => Bool.noConfusion (quiet _ member)

/-- The views of a request: it opens none, it fails to open one, or it opens one and closes it at the end. -/
def ViewsOnce (id : ℕ) (path : Path) (entries : List Entry) : Prop :=
  entries = [.did id (.called (.openView path)), .returned id (.openView path) false] ∨
    ∃ success, entries <+: [.did id (.called (.openView path)), .returned id (.openView path) true,
      .returned id (.closeView path) success]

/-- How far a request has come with the view of its artifact. -/
inductive Viewing (id : ℕ) (path : Path) : List Entry → Option Request → Prop
  | writing {staged : Staged} {purpose : Purpose} : Viewing id path [] (some (.writing staged purpose))
  | opening {staged : Staged} {position : Position} {wait : IndexWait} :
      Viewing id path [.did id (.called (.openView path))] (some (.indexing staged position wait .opening))
  | opened {staged : Staged} {position : Position} {wait : IndexWait} {step : Indexing}
      (later : step ≠ .opening) :
      Viewing id path [.did id (.called (.openView path)), .returned id (.openView path) true]
        (some (.indexing staged position wait step))
  | settled {entries : List Entry} {left : Option Request} (once : ViewsOnce id path entries)
      (settled : ∀ request, left = some request → request.isSettled = true) : Viewing id path entries left

theorem Viewing.once (viewing : Viewing id path entries left) : ViewsOnce id path entries := by
  cases viewing with
  | writing => exact .inr ⟨true, List.nil_prefix⟩
  | opening => exact .inr ⟨true, by simp⟩
  | opened => exact .inr ⟨true, by simp⟩
  | settled once => exact once

section Viewing

variable {staged : Staged} {position : Position} {wait : IndexWait} {step : Indexing}

theorem Viewing.of_writing {purpose : Purpose} (viewing : Viewing id path entries (some (.writing staged purpose))) :
    entries = [] := by
  cases viewing with
  | writing => rfl
  | settled _ settled => cases settled _ rfl

theorem Viewing.of_opening
    (viewing : Viewing id path entries (some (.indexing staged position wait .opening))) :
    entries = [.did id (.called (.openView path))] := by
  cases viewing with
  | opening => rfl
  | opened later => exact (later rfl).elim
  | settled _ settled => cases settled _ rfl

/-- A request that waits for its artifact to be indexed, or for the view to be closed, has opened the view. -/
theorem Viewing.of_later (viewing : Viewing id path entries (some (.indexing staged position wait step)))
    (later : step ≠ .opening) :
    entries = [.did id (.called (.openView path)), .returned id (.openView path) true] := by
  cases viewing with
  | opening => exact (later rfl).elim
  | opened => rfl
  | settled _ settled => cases settled _ rfl

/-- A request that has got as far as to ask for suggestions has done with views. -/
theorem Viewing.completing (once : ViewsOnce id path entries) :
    Viewing id path entries (some (.completing staged position)) := by
  apply Viewing.settled once
  rintro request ⟨⟩
  rfl

end Viewing

/-- Every stretch of a request keeps to its one view. -/
theorem Viewing.advance {request : Request} {call : Call} {reply : Reply} {surroundings : Surroundings}
    {workspace : Workspace} (viewing : Viewing id path entries (some request))
    (own : ∀ staged, request.staged? = some staged → staged.artifact.path = path)
    (calls : request.call? = some call) (approaches : Approaches surroundings workspace request reply turn) :
    Viewing id path (entries ++ (Entry.returned id call reply.succeeds :: trail id turn).filter Entry.isView)
      (some turn.request) := by
  cases approaches with
  | known | held =>
    obtain rfl := viewing.of_writing
    cases calls
    exact .completing (.inr ⟨true, List.nil_prefix⟩)
  | opens =>
    obtain rfl := viewing.of_writing
    obtain rfl := own _ rfl
    cases calls
    exact .opening
  | unopenable =>
    obtain rfl := viewing.of_opening
    obtain rfl := own _ rfl
    cases calls
    exact .completing (.inl rfl)
  | waits goes later quiet =>
    rw [List.filter_cons, filter_isView_trail (unopened_of_quiet quiet)]
    rcases goes with ⟨rfl, rfl⟩ | ⟨waited, rfl⟩
    · obtain rfl := viewing.of_opening
      obtain rfl := own _ rfl
      cases calls
      exact .opened later
    · obtain rfl := viewing.of_later nofun
      cases calls
      exact .opened later
  | closed =>
    obtain rfl := viewing.of_later nofun
    obtain rfl := own _ rfl
    cases calls
    exact .completing (.inr ⟨_, List.prefix_rfl⟩)
  | aside unviewed quiet settled =>
    rw [List.filter_cons_of_neg (by simp [isView_returned unviewed calls]),
      filter_isView_trail (unopened_of_quiet quiet), List.append_nil]
    apply Viewing.settled viewing.once
    rintro request ⟨⟩
    exact settled

/-- In every run, a request opens at most one view, and what it waits for tells how far it has come with it. -/
theorem viewing_after (configuration : Configuration) (actions : List Action)
    (began : .began id demand ∈ (after configuration actions).record) :
    ∃ left, LivesAs configuration (after configuration actions) id demand left ∧
      Viewing id (Artifact.pathFor demand.document.id configuration.artifactFileName)
        (views id (after configuration actions).record) left := by
  refine lives_along (motive := fun actions left =>
    Viewing id (Artifact.pathFor demand.document.id configuration.artifactFileName)
      (views id (after configuration actions).record) left) ?_ ?_ ?_ ?_ actions began
  · intro actions fresh
    have starts := demand.starts (after configuration actions).workspace
    have own : (Entry.began id demand).actor = id := rfl
    rw [after_concat, step_begin fresh, views_follow own, views, about_of_fresh fresh,
      List.filter_cons_of_neg (by simp [Entry.isView]), filter_isView_trail starts.unopened]
    generalize demand.start (after configuration actions).workspace = turn at starts
    cases starts with
    | write => exact .writing
    | _ => exact .settled (.inr ⟨true, List.nil_prefix⟩) (fun _ same => Option.some.inj same ▸ rfl)
  · intro actions request call surroundings reply viewing began waits calls fits
    have serves := (ordered_after configuration actions).serves began waits
    have own : (Entry.returned id call reply.succeeds).actor = id := rfl
    rw [after_concat, step_reply waits calls fits, views_follow own]
    exact viewing.advance (fun staged works => (serves.staged staged works).path_eq) calls
      (Request.approaches calls fits)
  · intro actions request viewing
    rw [after_concat]
    cases waits : (after configuration actions).waiting id with
    | none =>
      rw [step_drop_idle waits]
      exact .settled viewing.once nofun
    | some waiting =>
      rw [step_drop waits]
      refine .settled ?_ nofun
      simpa [views, about, abandon, Entry.actor, Entry.isView] using viewing.once
  · intro actions action left viewing same
    rw [views, same]
    exact viewing

end Run
end TypedJson
