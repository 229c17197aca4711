import TypedJson.Proofs.Run.Outcome
import TypedJson.Services

/-! # Services that reply alike at all times

What services reply can depend on their state. They are steady if it does not, except that what a checker
says about a file depends on what was written to it last. With steady services a validation takes the same
course whenever it is made: the tickets that were drawn before do not concern it, since its own ticket stays
current to its end. `Replies.validation` says which course this is.
-/

namespace TypedJson

/-- What is replied to the calls of a validation, and which paths name the same file. The report about a file
is that on its content. -/
structure Replies where
  writes : Path → String → Bool
  removes : Path → Bool
  report : Path → String → Except Error (List Finding)
  type : Path → TypeTag → Except Error Ty
  aliasing : Aliasing

namespace Replies

variable (replies : Replies) (configuration : Configuration) (document : Document)

/-- The course of a validation that has its artifact checked, and how it ends. -/
def checking (artifact : Artifact) : List Event × Outcome :=
  let write := Call.write artifact.path artifact.content
  if replies.writes artifact.path artifact.content then
    let (news, outcome) : List Event × Outcome :=
      match replies.report artifact.path artifact.content with
      | .error error => ([.notified ("Error: " ++ error.message)], .failed)
      | .ok findings =>
        let remapping := Remapping.ofFindings artifact replies.aliasing configuration.ignoredCodes findings
        (remapping.declarationErrors.map .notified ++ [.published document.id remapping.diagnostics],
          .published remapping.diagnostics.length remapping.declarationErrors.length)
    (.called write :: .called (.check [artifact.path]) :: (news ++ [.called (.remove artifact.path)]), outcome)
  else ([.called write], .failed)

/-- The course of a validation that compares a value with the type of its tag, and how it ends. -/
def comparing (tag : TypeTag) (value : Json) : List Event × Outcome :=
  let (news, outcome) : List Event × Outcome :=
    match replies.type document.directory tag with
    | .error error => ([.notified ("Error in $type: " ++ error.message)], .failed)
    | .ok type =>
      let diagnostics := Diagnostic.ofMismatches document.text.toList
        (type.mismatches configuration.unsupportedTypes (some value) "")
      ([.published document.id diagnostics], .published diagnostics.length 0)
  (.called (.resolve document.directory tag) :: news, outcome)

/-- The course of a validation, and how it ends. -/
def validation : List Event × Outcome :=
  if document.isJson then
    match TypeTag.ofText? document.text.toList with
    | none => ([], .untagged)
    | some tag =>
      match Json.ofText document.text.toList with
      | .error fault => ([.notified (Error.invalidJson fault).message], .failed)
      | .ok value =>
        match configuration.mode with
        | .checker => replies.checking configuration document
            (.ofDocument document.id document.text tag configuration.artifactFileName)
        | .matcher => replies.comparing configuration document tag value
  else ([], .skipped)

variable {replies configuration document}

theorem accounts_checking (tag : TypeTag) :
    let course := replies.checking configuration document
      (.ofDocument document.id document.text tag configuration.artifactFileName)
    Accounts configuration .checker document course.2 course.1 := by
  simp only [checking]
  split
  case isFalse => exact .failed [.write _ _] none []
  case isTrue =>
    split
    case h_1 error => exact .failed [.write _ _, .check _] (some _) [.remove _]
    case h_2 findings =>
      have published (write check : Call) (messages : List String) (diagnostics : List Diagnostic) :
          Accounts configuration .checker document _ _ := .published [write, check] messages diagnostics
      simpa [Mode.cleanUp, Artifact.ofDocument] using published _ _ _ _

theorem accounts_comparing (tag : TypeTag) (value : Json) :
    let course := replies.comparing configuration document tag value
    Accounts configuration .matcher document course.2 course.1 := by
  simp only [comparing]
  split
  case h_1 error => exact .failed [.resolve _ _] (some _) []
  case h_2 type => exact .published [.resolve _ _] [] _

/-- What a validation does accounts for how it ends. -/
theorem accounts_validation (replies : Replies) (configuration : Configuration) (document : Document) :
    Accounts configuration configuration.mode document (replies.validation configuration document).2
      (replies.validation configuration document).1 := by
  simp only [validation]
  split
  case isFalse => exact .skipped
  case isTrue =>
    split
    case h_1 => exact .untagged
    case h_2 tag _ =>
      split
      case h_1 fault _ => exact .failed [] (some _) []
      case h_2 value _ =>
        split
        case h_1 mode => exact mode ▸ accounts_checking tag
        case h_2 mode => exact mode ▸ accounts_comparing tag value

/-- A validation is skipped exactly if the document is not JSON, and it is never superseded. -/
theorem validation_outcome (replies : Replies) (configuration : Configuration) (document : Document) :
    (replies.validation configuration document).2 ≠ .superseded ∧
      ((replies.validation configuration document).2 = .skipped ↔ document.isJson = false) := by
  simp only [validation, checking, comparing]
  split
  case isFalse foreign => simp [foreign]
  case isTrue json =>
    rw [json]
    repeat' split
    all_goals simp

end Replies

section Draws

variable {workspace after : Workspace} {mode : Mode} {document : Document} {staged : Staged}

theorem Draws.isJson (draws : Draws workspace (.validate mode document) after staged) : document.isJson = true :=
  (Demand.lane?_eq_some_iff.mp draws.serves.lane).1

theorem Draws.tag_eq (draws : Draws workspace (.validate mode document) after staged) :
    TypeTag.ofText? document.text.toList = some staged.tag := draws.serves.tag

theorem Draws.configuration (draws : Draws workspace (.validate mode document) after staged) :
    after.configuration = workspace.configuration := by
  rw [draws.after, Workspace.issue_configuration]

end Draws

namespace Services

variable {σ : Type}

/-- Services reply alike at all times. The checker replies by the path of a file and the content that was written to
it last, so it is fixed what it says directly after a write. -/
structure Steady (services : Services σ) (replies : Replies) : Prop where
  write : ∀ state path content,
    (services.perform (.write path content) state).2 = .finished (replies.writes path content)
  remove : ∀ state path, (services.perform (.remove path) state).2 = .finished (replies.removes path)
  check : ∀ state path content, replies.writes path content = true →
    (services.perform (.check [path]) (services.perform (.write path content) state).1).2 =
      .report (replies.report path content)
  resolve : ∀ state directory tag,
    (services.perform (.resolve directory tag) state).2 = .resolved (replies.type directory tag)
  aliasing : ∀ state, (services.surroundings state).aliasing = replies.aliasing

/-- A finished validation has taken a course, and the configuration is as it was. -/
structure Finished.Took (finished : Finished σ) (configuration : Configuration) (course : List Event × Outcome) :
    Prop where
  events : finished.events = course.1
  answer : finished.answer = some (.outcome course.2)
  configuration : finished.workspace.configuration = configuration

variable {services : Services σ} {replies : Replies} {state : σ} {workspace : Workspace} {events : List Event}

/-- A request that makes a call goes on with the reply to it. -/
theorem finish_await {request : Request} {call : Call} (waits : request.call? = some call) (calls : ℕ) :
    services.finish (calls + 1) state (.await workspace events request) =
      let (next, reply) := services.perform call state
      let rest := services.finish calls next (request.resume (services.surroundings next) workspace reply)
      { rest with events := events ++ .called call :: rest.events } := by
  cases request with
  | finished answer => cases waits
  | _ => simp [finish, Turn.await, waits]

namespace Steady

variable {staged : Staged}

/-- A validation that writes its artifact has it checked, unless it cannot write it. -/
theorem took_writing (steady : services.Steady replies) (current : workspace.isCurrent staged = true) :
    (services.finish validationCalls state (.await workspace [] (.writing staged .validation))).Took
      workspace.configuration (replies.checking workspace.configuration staged.document staged.artifact) := by
  rw [validationCalls, finish_await rfl]
  simp only [steady.write, Replies.checking, Request.resume, Workspace.afterWrite]
  cases written : replies.writes staged.artifact.path staged.artifact.content with
  | false => exact ⟨rfl, rfl, rfl⟩
  | true =>
    simp only [Bool.not_true, Bool.false_eq_true, if_false, current, if_true]
    rw [finish_await rfl]
    simp only [steady.check _ _ _ written, Request.resume, Workspace.afterCheck]
    cases replies.report staged.artifact.path staged.artifact.content with
    | error error =>
      simp only [Workspace.notifyIfCurrent, current, if_true, Workspace.cleanUp_current]
      rw [finish_await rfl]
      simp only [steady.remove]
      exact ⟨rfl, rfl, rfl⟩
    | ok findings =>
      simp only [current, Bool.not_true, Bool.false_eq_true, if_false, Workspace.cleanUp_current, steady.aliasing]
      rw [finish_await rfl]
      simp only [steady.remove]
      exact ⟨rfl, rfl, rfl⟩

/-- A validation that resolves the type of a tag compares the value with it. -/
theorem took_resolving (steady : services.Steady replies) (current : workspace.isCurrent staged = true)
    (value : Json) :
    (services.finish validationCalls state (.await workspace [] (.resolving staged value))).Took
      workspace.configuration (replies.comparing workspace.configuration staged.document staged.tag value) := by
  rw [validationCalls, finish_await rfl]
  simp only [steady.resolve, Replies.comparing, Request.resume, Workspace.afterResolve]
  cases replies.type staged.document.directory staged.tag with
  | error error =>
    simp only [Workspace.notifyIfCurrent, current, if_true]
    exact ⟨rfl, rfl, rfl⟩
  | ok type =>
    simp only [current, Bool.not_true, Bool.false_eq_true, if_false]
    exact ⟨rfl, rfl, rfl⟩

/-- With steady services a validation takes its course, whatever happened before. -/
theorem took_validate (steady : services.Steady replies) (state : σ) (workspace : Workspace) (document : Document) :
    (services.validate state workspace document).Took workspace.configuration
      (replies.validation workspace.configuration document) := by
  have starts := Demand.starts workspace (.validate workspace.configuration.mode document)
  simp only [validate, Demand.start] at starts ⊢
  generalize workspace.validate workspace.configuration.mode document = turn at starts
  generalize mode : workspace.configuration.mode = configured at starts
  cases starts with
  | aside unlaned =>
    have course : replies.validation workspace.configuration document =
        ([], if document.isJson then .untagged else .skipped) := by
      rcases Demand.lane?_eq_none_iff.mp unlaned with foreign | untagged
      · simp [Replies.validation, show document.isJson = false from foreign]
      · simp only [Replies.validation, show TypeTag.ofText? document.text.toList = none from untagged]
        split <;> rfl
    rw [course]
    exact ⟨rfl, rfl, rfl⟩
  | @malformed _ _ after staged fault draws broken =>
    have course : replies.validation workspace.configuration document =
        ([.notified (Error.invalidJson fault).message], .failed) := by
      simp only [Replies.validation, draws.isJson, if_true, draws.tag_eq, broken]
    rw [course]
    exact ⟨rfl, rfl, draws.configuration⟩
  | @write _ after staged purpose draws purposed sound =>
    obtain ⟨value, read⟩ := Demand.isMalformed_validate_iff.mp sound
    cases configured with
    | matcher => cases purposed
    | checker =>
      obtain rfl := Option.some.inj purposed
      have course : replies.validation workspace.configuration document =
          replies.checking workspace.configuration staged.document staged.artifact := by
        simp only [Replies.validation, draws.isJson, if_true, draws.tag_eq, read, mode, draws.serves.document,
          draws.serves.artifact, Demand.document]
      rw [course, ← draws.configuration]
      exact steady.took_writing draws.isCurrent
  | @resolve _ after staged value draws read =>
    have course : replies.validation workspace.configuration document =
        replies.comparing workspace.configuration staged.document staged.tag value := by
      simp only [Replies.validation, draws.isJson, if_true, draws.tag_eq, read, mode, draws.serves.document,
        Demand.document]
    rw [course, ← draws.configuration]
    exact steady.took_resolving draws.isCurrent value

end Steady

end Services

/-- Services that remember what they have written, the newest text first, and reply from that. -/
def Replies.remembering (replies : Replies) : Services (List (Path × String)) where
  perform call written := match call with
    | .write path content =>
      let success := replies.writes path content
      (if success then (path, content) :: written else written, .finished success)
    | .remove path => (written.filter (·.1 ≠ path), .finished (replies.removes path))
    | .check roots =>
      let report := match written.find? (·.1 ∈ roots) with
        | some (path, content) => replies.report path content
        | none => .ok []
      (written, .report report)
    | .resolve directory tag => (written, .resolved (replies.type directory tag))
    | .completions _ _ => (written, .items [])
    | .hovers _ _ => (written, .hovers [])
    | .openView _ | .closeView _ | .sleep _ => (written, .finished true)
  surroundings _ := ⟨fun _ => false, fun _ _ => true, replies.aliasing⟩

/-- Whatever is replied, there are services that reply it at all times. -/
theorem Replies.steady_remembering (replies : Replies) : replies.remembering.Steady replies where
  write _ _ _ := rfl
  remove _ _ := rfl
  check written path content success := by simp [remembering, success]
  resolve _ _ _ := rfl
  aliasing _ := rfl

end TypedJson
