import TypedJson.Request
import Mathlib.Data.List.Induction
import Mathlib.Logic.Function.Basic

/-! # Runs

A run interleaves any number of requests on one workspace. Requests begin, get the replies to their
calls and are dropped in any order, and a reply may be any reply that fits the call. A run keeps the
record of what happened: each request that began, everything requests did in the order in which they did
it, and how they ended. Between two steps no request runs, so a request never stops inside a stretch.

Requests that supersede one another are in one `Lane`. A lane is known from what is demanded alone, so
statements about order speak of the record and not of tickets.
-/

namespace TypedJson

deriving instance DecidableEq for Document

/-- What is demanded of a request. -/
inductive Demand where
  | validate (mode : Mode) (document : Document)
  | complete (document : Document) (position : Position)
  | hover (document : Document) (position : Position)
  deriving DecidableEq

/-- The requests that draw tickets from one gate for one key. -/
structure Lane where
  mode : Mode
  key : List Component
  deriving DecidableEq

namespace Demand

/-- The document that a demand is about. -/
def document : Demand → Document
  | validate _ document | complete document _ | hover document _ => document

/-- The mode whose gate a demand draws its ticket from: suggestions and hovers write the artifact. -/
def mode : Demand → Mode
  | validate mode _ => mode
  | complete _ _ | hover _ _ => .checker

/-- The first stretch of a request. -/
def start (workspace : Workspace) : Demand → Turn
  | validate mode document => workspace.validate mode document
  | complete document position => workspace.complete document position
  | hover document position => workspace.hover document position

/-- The text of the document is JSON. -/
def isWellFormed (demand : Demand) : Bool :=
  match Json.ofText demand.document.text.toList with
  | .ok _ => true
  | .error _ => false

/-- The key of a document in a mode: its artifact, or the document itself. -/
def keyFor (configuration : Configuration) (id : Path) : Mode → List Component
  | .checker => (Artifact.pathFor id configuration.artifactFileName).components
  | .matcher => id.components

/-- The lane of a request. Only requests on tagged documents take part in one. -/
def lane? (configuration : Configuration) (demand : Demand) : Option Lane :=
  if demand.document.isJson && (TypeTag.ofText? demand.document.text.toList).isSome then
    some ⟨demand.mode, keyFor configuration demand.document.id demand.mode⟩
  else none

end Demand

/-- The reply belongs to the call. -/
def Reply.fits : Reply → Call → Bool
  | .finished _, .write _ _ | .finished _, .remove _ | .finished _, .openView _
  | .finished _, .closeView _ | .finished _, .sleep _ => true
  | .report _, .check _ => true
  | .resolved _, .resolve _ _ => true
  | .items _, .completions _ _ => true
  | .hovers _, .hovers _ _ => true
  | _, _ => false

/-- The reply is not a failure. -/
def Reply.succeeds : Reply → Bool
  | .finished success => success
  | .report result => result.isOk
  | .resolved result => result.isOk
  | .items _ | .hovers _ => true

/-- An entry of the record of a run. -/
inductive Run.Entry where
  | began (id : ℕ) (demand : Demand)
  | did (id : ℕ) (event : Event)
  | returned (id : ℕ) (call : Call) (success : Bool)
  | ended (id : ℕ) (answer : Answer)
  | dropped (id : ℕ)
  deriving DecidableEq

/-- The name of the request that begins with an entry. -/
def Run.Entry.opens? : Run.Entry → Option ℕ
  | .began id _ => some id
  | _ => none

/-- A step of a run: a request begins, gets a reply, or is dropped. -/
inductive Run.Action where
  | begin (id : ℕ) (demand : Demand)
  | reply (id : ℕ) (surroundings : Surroundings) (reply : Reply)
  | drop (id : ℕ)

/-- The state of a run: what requests share, the requests that wait for a reply, and the record. -/
structure Run where
  workspace : Workspace
  waiting : ℕ → Option Request
  record : List Run.Entry

namespace Run

/-- The run in which nothing has happened. -/
def empty (configuration : Configuration) : Run := ⟨.empty configuration, fun _ => none, []⟩

/-- The names of the requests that have begun, in their order. -/
def names (record : List Entry) : List ℕ := record.filterMap Entry.opens?

/-- What a stretch of a request leaves in the record. -/
def trail (id : ℕ) (turn : Turn) : List Entry :=
  turn.events.map (.did id) ++
    match turn.request with
    | .finished answer => [.ended id answer]
    | _ => []

/-- The request that still waits after a stretch. -/
def remaining : Request → Option Request
  | .finished _ => none
  | request => some request

/-- The run after a stretch of a request, which is entered into the record under a heading. -/
def follow (run : Run) (id : ℕ) (heading : Entry) (turn : Turn) : Run where
  workspace := turn.workspace
  waiting := Function.update run.waiting id (remaining turn.request)
  record := run.record ++ heading :: trail id turn

/-- The run after a waiting request has been dropped. -/
def abandon (run : Run) (id : ℕ) (request : Request) : Run where
  workspace := request.cancel run.workspace
  waiting := Function.update run.waiting id none
  record := run.record ++ [.dropped id]

/-- One step of a run. A name is taken once, and only a fitting reply to a waiting request has effect. -/
def step (run : Run) : Action → Run
  | .begin id demand =>
    if id ∈ names run.record then run
    else run.follow id (.began id demand) (demand.start run.workspace)
  | .reply id surroundings reply =>
    match run.waiting id with
    | none => run
    | some request =>
      match request.call?.filter (reply.fits ·) with
      | none => run
      | some call =>
        run.follow id (.returned id call reply.succeeds) (request.resume surroundings run.workspace reply)
  | .drop id =>
    match run.waiting id with
    | none => run
    | some request => run.abandon id request

/-- The run that takes the given steps. -/
def after (configuration : Configuration) (actions : List Action) : Run :=
  actions.foldl step (empty configuration)

theorem after_concat (configuration : Configuration) (actions : List Action) (action : Action) :
    after configuration (actions ++ [action]) = (after configuration actions).step action := by
  simp [after]

theorem step_begin {run : Run} {id : ℕ} (fresh : id ∉ names run.record) (demand : Demand) :
    run.step (.begin id demand) = run.follow id (.began id demand) (demand.start run.workspace) :=
  if_neg fresh

theorem step_reply {run : Run} {id : ℕ} {request : Request} {call : Call} {reply : Reply}
    (waits : run.waiting id = some request) (calls : request.call? = some call)
    (fits : reply.fits call = true) (surroundings : Surroundings) :
    run.step (.reply id surroundings reply) =
      run.follow id (.returned id call reply.succeeds) (request.resume surroundings run.workspace reply) := by
  simp only [step, waits, calls, Option.filter_some, fits, if_true]

theorem step_drop {run : Run} {id : ℕ} {request : Request} (waits : run.waiting id = some request) :
    run.step (.drop id) = run.abandon id request := by
  simp only [step, waits]

theorem step_reply_idle {run : Run} {id : ℕ} (idle : run.waiting id = none) (surroundings : Surroundings)
    (reply : Reply) : run.step (.reply id surroundings reply) = run := by
  simp only [step, idle]

theorem step_reply_unheard {run : Run} {id : ℕ} {request : Request} {reply : Reply}
    (waits : run.waiting id = some request) (unheard : request.call?.filter (reply.fits ·) = none)
    (surroundings : Surroundings) : run.step (.reply id surroundings reply) = run := by
  simp only [step, waits, unheard]

theorem step_drop_idle {run : Run} {id : ℕ} (idle : run.waiting id = none) : run.step (.drop id) = run := by
  simp only [step, idle]

@[simp] theorem waiting_follow (run : Run) (id : ℕ) (heading : Entry) (turn : Turn) :
    (run.follow id heading turn).waiting id = remaining turn.request := Function.update_self ..

theorem waiting_follow_of_ne {id other : ℕ} (apart : other ≠ id) (run : Run) (heading : Entry) (turn : Turn) :
    (run.follow id heading turn).waiting other = run.waiting other := Function.update_of_ne apart ..

@[simp] theorem waiting_abandon (run : Run) (id : ℕ) (request : Request) :
    (run.abandon id request).waiting id = none := Function.update_self ..

theorem waiting_abandon_of_ne {id other : ℕ} (apart : other ≠ id) (run : Run) (request : Request) :
    (run.abandon id request).waiting other = run.waiting other := Function.update_of_ne apart ..

/-- What a step does if it does anything. -/
inductive Advances (run : Run) : Action → Run → Prop
  | begin {id : ℕ} {demand : Demand} (fresh : id ∉ names run.record) :
      Advances run (.begin id demand) (run.follow id (.began id demand) (demand.start run.workspace))
  | reply {id : ℕ} {request : Request} {call : Call} {surroundings : Surroundings} {reply : Reply}
      (waits : run.waiting id = some request) (calls : request.call? = some call)
      (fits : reply.fits call = true) :
      Advances run (.reply id surroundings reply) (run.follow id (.returned id call reply.succeeds)
        (request.resume surroundings run.workspace reply))
  | drop {id : ℕ} {request : Request} (waits : run.waiting id = some request) :
      Advances run (.drop id) (run.abandon id request)

theorem step_eq_or_advances (run : Run) (action : Action) :
    run.step action = run ∨ Advances run action (run.step action) := by
  cases action with
  | begin id demand =>
    simp only [step]
    split
    case isTrue => exact .inl rfl
    case isFalse fresh => exact .inr (.begin fresh)
  | reply id surroundings reply =>
    simp only [step]
    split
    case h_1 => exact .inl rfl
    case h_2 request waits =>
      split
      case h_1 => exact .inl rfl
      case h_2 call listened =>
        obtain ⟨calls, fits⟩ := Option.filter_eq_some_iff.mp listened
        exact .inr (.reply waits calls fits)
  | drop id =>
    simp only [step]
    split
    case h_1 => exact .inl rfl
    case h_2 request waits => exact .inr (.drop waits)

/-- A record only grows. -/
theorem record_prefix_step (run : Run) (action : Action) : run.record <+: (run.step action).record := by
  rcases step_eq_or_advances run action with same | advances
  · exact same.symm ▸ List.prefix_rfl
  · generalize run.step action = next at advances
    cases advances with
    | begin | reply | drop => exact List.prefix_append ..

theorem record_prefix (configuration : Configuration) (actions more : List Action) :
    (after configuration actions).record <+: (after configuration (actions ++ more)).record := by
  induction more using List.reverseRecOn with
  | nil => exact (List.append_nil actions).symm ▸ List.prefix_rfl
  | append_singleton more action ih =>
    rw [← List.append_assoc, after_concat]
    exact ih.trans (record_prefix_step ..)

/-- What holds of the empty run and is kept by every step that does something holds of every run. -/
theorem after_induction {configuration : Configuration} {motive : Run → Prop}
    (empty : motive (empty configuration))
    (advance : ∀ run action next, motive run → Advances run action next → motive next)
    (actions : List Action) : motive (after configuration actions) := by
  induction actions using List.reverseRecOn with
  | nil => exact empty
  | append_singleton actions action ih =>
    rw [after_concat]
    obtain same | advances := step_eq_or_advances (after configuration actions) action
    · rwa [same]
    · exact advance _ _ _ ih advances

end Run
end TypedJson
