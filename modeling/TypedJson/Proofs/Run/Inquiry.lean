import TypedJson.Proofs.Run.Calls

/-! # What requests ask the language service

A request for suggestions or a hover has one question to the language service, about its artifact. Whether it
asks is settled when the write of the artifact returns: it does if the artifact was written and no newer request
had begun in the lane by then. A request for suggestions may have to open a view first. Others go on until the
artifact is indexed, and after that nobody looks at the ticket again. Nobody does so when the service answers
either, so the answer to the request is the reply of the service, whoever is the newest by then.
-/

namespace TypedJson

open Run (deeds deeds_append deeds_stretch deeds_did)

/-- A question to the language service. -/
def Event.inquires : Event → Bool
  | called call => call.place?.isSome
  | _ => false

theorem Event.not_inquires_of_isIndexing {event : Event} (quiet : event.isIndexing = true) :
    event.inquires = false := by
  unfold Event.isIndexing at quiet
  split at quiet <;> first | rfl | cases quiet

/-- A view is opened to get an artifact indexed, or there is nothing to wait for. -/
theorem Indexing.start_opens {surroundings : Surroundings} {indexed : IndexedSet} {path : Path} :
    .called (.openView path) ∈ (start surroundings indexed path).events ∨
      (start surroundings indexed path).next = none := by
  unfold start
  split
  · exact .inr rfl
  · split
    · exact .inr rfl
    · exact .inl (by simp)

namespace Demand

/-- The question to the language service that a demand leads to. -/
def inquiry? (artifact : Artifact) : Demand → Option Call
  | complete _ position => some (.completions artifact.path (position.down artifact.headerLines))
  | hover _ position => some (.hovers artifact.path (position.down artifact.headerLines))
  | validate _ _ => none

/-- The answer to a demand that the reply of the language service makes. -/
def answerTo? : Demand → Reply → Option Answer
  | complete document position, .items items =>
    some (.items (CompletionItem.shapeAll items document.text.toList position))
  | hover _ _, .hovers texts => some (.hover texts.head?)
  | _, _ => none

end Demand

/-- A request on a tagged document has a question about its artifact. -/
structure Inquirer (configuration : Configuration) (demand : Demand) (artifact : Artifact) (question : Call) :
    Prop where
  laned : demand.lane? configuration = some ⟨.checker, artifact.path.components⟩
  own : ∀ staged : Staged, staged.Serves configuration demand → staged.artifact = artifact
  question : demand.inquiry? artifact = some question

section Inquirer

variable {configuration : Configuration} {demand : Demand} {artifact : Artifact} {question : Call}

theorem Inquirer.of_tagged {tag : TypeTag} (json : demand.document.isJson = true)
    (tagged : TypeTag.ofText? demand.document.text.toList = some tag)
    (built : artifact = Artifact.ofDocument demand.document.id demand.document.text tag
      configuration.artifactFileName)
    (asks : demand.inquiry? artifact = some question) : Inquirer configuration demand artifact question where
  laned := by
    have mode : demand.mode = .checker := by
      cases demand with
      | validate => cases asks
      | complete | hover => rfl
    rw [Demand.lane?_eq_some_iff, tagged, mode, built]
    exact ⟨json, rfl, rfl⟩
  own := fun staged serves => built ▸ serves.artifact_eq tagged
  question := asks

/-- Without its artifact or its ticket a request ends without an answer. -/
theorem Inquirer.declined_of_purpose? (inquirer : Inquirer configuration demand artifact question)
    {purpose : Purpose} (purposed : demand.purpose? = some purpose) :
    purpose.failed = demand.declined ∧ purpose.superseded = demand.declined := by
  have asks := inquirer.question
  cases demand with
  | validate => cases asks
  | complete | hover =>
    cases purposed
    exact ⟨rfl, rfl⟩

/-- A request that waits for the reply to its question answers with that reply. -/
theorem Inquirer.resume_eq (inquirer : Inquirer configuration demand artifact question) {request : Request}
    {surroundings : Surroundings} {workspace : Workspace} {reply : Reply}
    (serves : request.Serves configuration demand) (calls : request.call? = some question)
    (fits : reply.fits question = true) :
    ∃ staged answer, demand.answerTo? reply = some answer ∧
      request.resume surroundings workspace reply = workspace.cleanUp staged [] answer := by
  have laned := inquirer.laned
  have asks := inquirer.question
  cases demand with
  | validate => cases asks
  | complete document position =>
    cases asks
    cases request with
    | completing staged place =>
      cases serves.aim _ rfl
      have own : staged.document = document := (serves.staged staged rfl).document
      cases reply with
      | items items => exact ⟨staged, _, rfl, by rw [Request.resume, own]⟩
      | _ => cases fits
    | completingUntagged => simp [serves.aside rfl] at laned
    | indexing _ _ _ step => cases step <;> cases calls
    | _ => cases calls
  | hover document position =>
    cases asks
    cases request with
    | hovering staged place =>
      cases reply with
      | hovers texts => exact ⟨staged, _, rfl, rfl⟩
      | _ => cases fits
    | indexing _ _ _ step => cases step <;> cases calls
    | _ => cases calls

end Inquirer

namespace Run

variable {configuration : Configuration} {actions : List Action} {id : ℕ} {demand : Demand}
  {artifact : Artifact} {question : Call} {run : Run} {record since more : List Entry} {heading : Entry}
  {turn : Turn}

/-- The questions that a request has put to the language service. -/
def inquiries (id : ℕ) (record : List Entry) : List Event := (deeds id record).filter Event.inquires

theorem inquiries_append : inquiries id (record ++ more) = inquiries id record ++ inquiries id more := by
  rw [inquiries, deeds_append, List.filter_append]
  rfl

theorem inquiries_stretch (silent : heading.deedOf? id = none) :
    inquiries id (heading :: trail id turn) = turn.events.filter Event.inquires := by
  rw [inquiries, deeds_stretch silent]

theorem inquiries_did {events : List Event} (silent : heading.deedOf? id = none) :
    inquiries id (heading :: events.map (.did id)) = events.filter Event.inquires := by
  rw [inquiries, deeds, List.filterMap_cons_none silent, ← deeds, deeds_did]

/-- Nobody asks for another one. -/
theorem inquiries_of_about (foreign : about id more = []) : inquiries id more = [] := by
  rw [inquiries, ← deeds_about, foreign]
  rfl

theorem about_eq_nil_of_append (same : about id (record ++ more) = about id record) : about id more = [] := by
  rw [about, List.filter_append] at same
  exact List.append_right_eq_self.mp same

theorem not_mem_of_about {entry : Entry} (foreign : about id more = []) (own : entry.actor = id) :
    entry ∉ more := fun member => List.filter_eq_nil_iff.mp foreign entry member (decide_eq_true own)

/-- A request was the newest of its lane when it was told that its artifact is written. The rest of the record
is `since` then. -/
def Granted (configuration : Configuration) (id : ℕ) (artifact : Artifact) (record since : List Entry) : Prop :=
  ∃ before, record = before ++ .returned id (.write artifact.path artifact.content) true :: since ∧
    newest? configuration ⟨.checker, artifact.path.components⟩ before = some id

theorem Granted.append (granted : Granted configuration id artifact record since) (more : List Entry) :
    Granted configuration id artifact (record ++ more) (since ++ more) := by
  obtain ⟨before, rfl, newest⟩ := granted
  exact ⟨before, by simp, newest⟩

theorem Granted.append_cons (granted : Granted configuration id artifact (record ++ [heading]) since)
    (more : List Entry) : Granted configuration id artifact (record ++ heading :: more) (since ++ more) := by
  rw [List.append_cons]
  exact granted.append more

/-- What others do grants nothing. -/
theorem Granted.of_append (foreign : about id more = [])
    (granted : Granted configuration id artifact (record ++ more) since) :
    ∃ since, Granted configuration id artifact record since := by
  obtain ⟨before, split, newest⟩ := granted
  obtain ⟨rest, whole⟩ := split_of_not_mem (not_mem_of_about foreign rfl) split
  exact ⟨rest, before, whole, newest⟩

/-- At this point a request may put its question: it is still the newest of its lane, or it is after
suggestions and has opened a view in between. -/
def MayAsk (configuration : Configuration) (id : ℕ) (demand : Demand) (artifact : Artifact)
    (past : List Entry) : Prop :=
  ∃ since, Granted configuration id artifact past since ∧
    (newest? configuration ⟨.checker, artifact.path.components⟩ past = some id ∨
      (∃ document position, demand = .complete document position) ∧
        .did id (.called (.openView artifact.path)) ∈ since)

/-- A request has put its question, once and at a point where it might. -/
def HasAsked (configuration : Configuration) (id : ℕ) (demand : Demand) (artifact : Artifact) (question : Call)
    (record : List Entry) : Prop :=
  ∃ past future, record = past ++ .did id (.called question) :: future ∧ inquiries id past = [] ∧
    inquiries id future = [] ∧ MayAsk configuration id demand artifact past

theorem HasAsked.append (asked : HasAsked configuration id demand artifact question record)
    (quiet : inquiries id more = []) : HasAsked configuration id demand artifact question (record ++ more) := by
  obtain ⟨past, future, rfl, first, last, may⟩ := asked
  exact ⟨past, future ++ more, by simp, first, by rw [inquiries_append, last, quiet]; rfl, may⟩

/-- A stretch that ends with the question puts it, once. -/
theorem HasAsked.of_follow {events : List Event} (unheard : events.filter Event.inquires = [])
    (silent : heading.deedOf? id = none) (unasked : inquiries id run.record = [])
    (calls : turn.request.call? = some question) (asks : turn.events = events ++ [.called question])
    (may : MayAsk configuration id demand artifact (run.record ++ heading :: events.map (.did id))) :
    HasAsked configuration id demand artifact question (run.follow id heading turn).record := by
  refine ⟨_, [], ?_, ?_, rfl, may⟩
  · rw [follow, trail_of_waiting rfl calls, asks]
    simp
  · rw [inquiries_append, unasked, inquiries_did silent, unheard]
    rfl

/-- An answer comes from a reply to the question of a request. -/
def Answered (configuration : Configuration) (id : ℕ) (demand : Demand) (question : Call)
    (actions : List Action) (answer : Answer) : Prop :=
  ∃ before surroundings reply rest request, actions = before ++ .reply id surroundings reply :: rest ∧
    (after configuration before).waiting id = some request ∧ request.call? = some question ∧
    demand.answerTo? reply = some answer

theorem Answered.append {answer : Answer} (answered : Answered configuration id demand question actions answer)
    (more : List Action) : Answered configuration id demand question (actions ++ more) answer := by
  obtain ⟨before, surroundings, reply, rest, request, rfl, waits, calls, answers⟩ := answered
  exact ⟨before, surroundings, reply, rest ++ more, request, by simp, waits, calls, answers⟩

/-- What is left of a request that has not put its question. -/
inductive Undecided (configuration : Configuration) (id : ℕ) (demand : Demand) (artifact : Artifact)
    (record : List Entry) : Option Request → Prop
  | writing (staged : Staged) (purpose : Purpose)
      (unreturned : .returned id (.write artifact.path artifact.content) true ∉ record) :
      Undecided configuration id demand artifact record (some (.writing staged purpose))
  | indexing (staged : Staged) (position : Position) (wait : IndexWait) (step : Indexing) {since : List Entry}
      (granted : Granted configuration id artifact record since)
      (opened : .did id (.called (.openView artifact.path)) ∈ since) :
      Undecided configuration id demand artifact record (some (.indexing staged position wait step))
  | declined (refused : ∀ since, ¬ Granted configuration id artifact record since) :
      Undecided configuration id demand artifact record (some (.finished demand.declined))
  | dropped : Undecided configuration id demand artifact record none

theorem Undecided.append {left : Option Request} (undecided : Undecided configuration id demand artifact record left)
    (foreign : about id more = []) : Undecided configuration id demand artifact (record ++ more) left := by
  cases undecided with
  | writing staged purpose unreturned =>
    refine .writing staged purpose fun returned => ?_
    exact (List.mem_append.mp returned).elim unreturned (not_mem_of_about foreign rfl)
  | indexing staged position wait step granted opened =>
    exact .indexing staged position wait step (granted.append more) (List.mem_append_left _ opened)
  | declined refused =>
    refine .declined fun since granted => ?_
    obtain ⟨since, granted⟩ := granted.of_append foreign
    exact refused since granted
  | dropped => exact .dropped

/-- What is left of a request that has put its question. -/
inductive Decided (configuration : Configuration) (id : ℕ) (demand : Demand) (question : Call)
    (actions : List Action) : Option Request → Prop
  | asking {request : Request} (calls : request.call? = some question) :
      Decided configuration id demand question actions (some request)
  | removing (staged : Staged) {answer : Answer}
      (answered : Answered configuration id demand question actions answer) :
      Decided configuration id demand question actions (some (.removing staged answer))
  | finished {answer : Answer} (answered : Answered configuration id demand question actions answer) :
      Decided configuration id demand question actions (some (.finished answer))
  | dropped : Decided configuration id demand question actions none

theorem Decided.append {left : Option Request} (decided : Decided configuration id demand question actions left)
    (more : List Action) : Decided configuration id demand question (actions ++ more) left := by
  cases decided with
  | asking calls => exact .asking calls
  | removing staged answered => exact .removing staged (answered.append more)
  | finished answered => exact .finished (answered.append more)
  | dropped => exact .dropped

/-- How far a request has come with its question. -/
inductive Inquires (configuration : Configuration) (id : ℕ) (demand : Demand) (artifact : Artifact)
    (question : Call) (actions : List Action) (record : List Entry) (left : Option Request) : Prop
  | unasked (quiet : inquiries id record = []) (undecided : Undecided configuration id demand artifact record left)
  | asked (asked : HasAsked configuration id demand artifact question record)
      (decided : Decided configuration id demand question actions left)

section Inquires

variable {left : Option Request} {request : Request}

/-- What others do leaves the question alone. -/
theorem Inquires.append (inquires : Inquires configuration id demand artifact question actions record left)
    (foreign : about id more = []) (later : List Action) :
    Inquires configuration id demand artifact question (actions ++ later) (record ++ more) left := by
  have quiet := inquiries_of_about foreign
  cases inquires with
  | unasked none undecided =>
    exact .unasked (by rw [inquiries_append, none, quiet]; rfl) (undecided.append foreign)
  | asked asked decided => exact .asked (asked.append quiet) (decided.append later)

/-- A request begins by writing its artifact. -/
theorem Inquires.of_starts (inquirer : Inquirer configuration demand artifact question)
    (ordered : Ordered configuration run) (fresh : about id run.record = []) :
    Inquires configuration id demand artifact question actions
      (run.follow id (.began id demand) (demand.start run.workspace)).record
      (some (demand.start run.workspace).request) := by
  have laned := inquirer.laned
  have asks := inquirer.question
  have starts := demand.starts run.workspace
  rw [← ordered.configured] at laned
  generalize demand.start run.workspace = turn at starts
  cases starts with
  | aside unlaned | ask unlaned =>
    rw [unlaned] at laned
    cases laned
  | malformed | resolve => cases asks
  | write =>
    refine .unasked ?_ (.writing _ _ ?_)
    · rw [follow, inquiries_append, inquiries_stretch rfl, inquiries_of_about fresh]
      rfl
    · rw [follow, List.mem_append, not_or]
      exact ⟨not_mem_of_about fresh rfl, by simp [trail, Turn.await]⟩

/-- After a stretch of indexing a request goes on waiting, or it puts its question. -/
theorem Inquires.of_afterIndexing {workspace : Workspace} {staged : Staged} {position : Position}
    {wait : IndexWait} {stretch : Indexing.Stretch} (asks : demand.inquiry? artifact = some question)
    (purposed : demand.purpose? = some (.completion position)) (own : staged.artifact = artifact)
    (quiet : stretch.events.all Event.isIndexing = true) (silent : heading.deedOf? id = none)
    (unasked : inquiries id run.record = [])
    (granted : Granted configuration id artifact (run.record ++ [heading]) since)
    (may : .did id (.called (.openView artifact.path)) ∈ since ++ stretch.events.map (.did id) ∨
      stretch.next = none ∧
        newest? configuration ⟨.checker, artifact.path.components⟩ (run.record ++ [heading]) = some id)
    (goes : turn = workspace.afterIndexing staged position wait stretch) :
    Inquires configuration id demand artifact question actions (run.follow id heading turn).record
      (some turn.request) := by
  obtain ⟨document, rfl⟩ : ∃ document, demand = .complete document position := by
    cases demand with
    | validate mode => cases mode <;> cases purposed
    | complete document => exact ⟨document, by cases purposed; rfl⟩
    | hover => cases purposed
  cases asks
  subst own
  have unheard : stretch.events.filter Event.inquires = [] := by
    rw [List.filter_eq_nil_iff]
    intro event member
    simp [Event.not_inquires_of_isIndexing (List.all_eq_true.mp quiet event member)]
  have granted := granted.append_cons (stretch.events.map (.did id))
  simp only [Workspace.afterIndexing] at goes
  cases next : stretch.next with
  | some step =>
    rw [next] at goes
    subst goes
    refine .unasked ?_ ?_
    · rw [follow, inquiries_append, inquiries_stretch silent, unasked, unheard]
      rfl
    · rw [follow, trail_of_waiting rfl rfl]
      exact .indexing _ _ _ _ granted (may.resolve_right fun idle => by simp [next] at idle)
  | none =>
    rw [next] at goes
    subst goes
    refine .asked (.of_follow unheard silent unasked rfl rfl ⟨_, granted, ?_⟩) (.asking rfl)
    refine may.symm.imp (fun idle => ?_) fun opened => ⟨⟨document, position, rfl⟩, opened⟩
    rw [List.append_cons, newest?, entrants_append, entrants_did, List.append_nil]
    exact idle.2

/-- A request that ends after its write has not asked. -/
theorem Inquires.of_declined {workspace : Workspace} (silent : heading.deedOf? id = none)
    (unasked : inquiries id run.record = [])
    (unreturned : .returned id (.write artifact.path artifact.content) true ∉ run.record)
    (refused : heading = .returned id (.write artifact.path artifact.content) true →
      newest? configuration ⟨.checker, artifact.path.components⟩ run.record ≠ some id)
    (ends : turn = .finish workspace [] demand.declined) :
    Inquires configuration id demand artifact question actions (run.follow id heading turn).record
      (some turn.request) := by
  subst ends
  refine .unasked ?_ (.declined ?_)
  · rw [follow, inquiries_append, inquiries_stretch silent, unasked]
    rfl
  · rintro since ⟨before, split, newest⟩
    rw [follow, List.append_cons] at split
    obtain ⟨rest, headed⟩ := split_of_not_mem (by simp [trail, Turn.finish]) split
    rcases concat_eq_split headed with ⟨rfl, same, -⟩ | ⟨front, whole, -⟩
    · exact refused same newest
    · exact unreturned (by simp [whole])

/-- A request that is the newest of its lane when its artifact is written goes on to its question. -/
theorem Inquires.of_current (asks : demand.inquiry? artifact = some question) {staged : Staged} {purpose : Purpose}
    {surroundings : Surroundings} (purposed : demand.purpose? = some purpose) (own : staged.artifact = artifact)
    (current : run.workspace.isCurrent staged = true) (unasked : inquiries id run.record = [])
    (newest : newest? configuration ⟨.checker, artifact.path.components⟩ run.record = some id)
    (headed : heading = .returned id (.write artifact.path artifact.content) true)
    (goes : turn = run.workspace.afterWrite surroundings staged purpose true) :
    Inquires configuration id demand artifact question actions (run.follow id heading turn).record
      (some turn.request) := by
  subst headed
  have granted : Granted configuration id artifact
      (run.record ++ [.returned id (.write artifact.path artifact.content) true]) [] := ⟨run.record, rfl, newest⟩
  simp only [Workspace.afterWrite, current, Bool.not_true, Bool.false_eq_true, if_false] at goes
  cases demand with
  | validate => cases asks
  | complete document position =>
    cases purposed
    refine .of_afterIndexing asks rfl own Indexing.start_events rfl unasked granted
      (Indexing.start_opens.imp (fun opened => ?_) fun idle => ⟨idle, newest?_returned.trans newest⟩) goes
    exact List.mem_append_right _ (List.mem_map_of_mem (own ▸ opened))
  | hover document position =>
    cases purposed
    cases asks
    subst own
    subst goes
    exact .asked (.of_follow rfl rfl unasked rfl rfl ⟨[], granted, .inl (newest?_returned.trans newest)⟩)
      (.asking rfl)

/-- The return of the write settles whether a request asks. -/
theorem Inquires.of_writing (inquirer : Inquirer configuration demand artifact question)
    (ordered : Ordered configuration run) {staged : Staged} {purpose : Purpose} {call : Call}
    {surroundings : Surroundings} {reply : Reply} (began : .began id demand ∈ run.record)
    (waits : run.waiting id = some (.writing staged purpose))
    (calls : (Request.writing staged purpose).call? = some call) (fits : reply.fits call = true)
    (unasked : inquiries id run.record = [])
    (unreturned : .returned id (.write artifact.path artifact.content) true ∉ run.record) :
    Inquires configuration id demand artifact question actions
      (run.follow id (.returned id call reply.succeeds)
        ((Request.writing staged purpose).resume surroundings run.workspace reply)).record
      (some ((Request.writing staged purpose).resume surroundings run.workspace reply).request) := by
  have serves := ordered.serves began waits
  have served := serves.staged staged rfl
  have purposed : demand.purpose? = some purpose := serves.aim _ rfl
  obtain ⟨failed, superseded⟩ := inquirer.declined_of_purpose? purposed
  obtain rfl := inquirer.own staged served
  have lane := served.lane_eq (served.mode.trans (Demand.mode_of_purpose? (by rw [purposed]; rfl)))
  have current_iff := ordered.current id _ staged waits rfl
  rw [lane] at current_iff
  cases calls
  cases reply with
  | finished success =>
    cases success with
    | false => exact .of_declined rfl unasked unreturned nofun (congrArg (Turn.finish run.workspace []) failed)
    | true =>
      cases current : run.workspace.isCurrent staged with
      | false =>
        have goes : run.workspace.afterWrite surroundings staged purpose true =
            .finish run.workspace [] purpose.superseded := by
          simp [Workspace.afterWrite, current, Workspace.cleanUp_stale]
        refine .of_declined rfl unasked unreturned (fun _ newest => ?_) (superseded ▸ goes)
        simp [current_iff.mpr newest] at current
      | true => exact .of_current inquirer.question purposed rfl current unasked (current_iff.mp current) rfl rfl
  | _ => cases fits

/-- The reply to the question is what a request answers with. -/
theorem Inquires.of_asking (inquirer : Inquirer configuration demand artifact question)
    (ordered : Ordered configuration (after configuration actions)) {surroundings : Surroundings} {reply : Reply}
    (began : .began id demand ∈ (after configuration actions).record)
    (waits : (after configuration actions).waiting id = some request) (calls : request.call? = some question)
    (fits : reply.fits question = true)
    (asked : HasAsked configuration id demand artifact question (after configuration actions).record) :
    Inquires configuration id demand artifact question (actions ++ [.reply id surroundings reply])
      ((after configuration actions).follow id (.returned id question reply.succeeds)
        (request.resume surroundings (after configuration actions).workspace reply)).record
      (some (request.resume surroundings (after configuration actions).workspace reply).request) := by
  obtain ⟨staged, answer, answers, goes⟩ := inquirer.resume_eq (ordered.serves began waits) calls fits
  have answered : Answered configuration id demand question (actions ++ [.reply id surroundings reply]) answer :=
    ⟨actions, surroundings, reply, [], request, rfl, waits, calls, answers⟩
  rw [goes]
  cases current : (after configuration actions).workspace.isCurrent staged with
  | true =>
    rw [Workspace.cleanUp_current current]
    exact .asked (asked.append (inquiries_stretch rfl)) (.removing staged answered)
  | false =>
    rw [Workspace.cleanUp_stale current]
    exact .asked (asked.append (inquiries_stretch rfl)) (.finished answered)

/-- Every step of a request keeps to its one question. -/
theorem Inquires.of_reply (inquirer : Inquirer configuration demand artifact question) {call : Call}
    {surroundings : Surroundings} {reply : Reply}
    (inquires : Inquires configuration id demand artifact question actions (after configuration actions).record
      (some request))
    (began : .began id demand ∈ (after configuration actions).record)
    (waits : (after configuration actions).waiting id = some request) (calls : request.call? = some call)
    (fits : reply.fits call = true) :
    Inquires configuration id demand artifact question (actions ++ [.reply id surroundings reply])
      ((after configuration actions).follow id (.returned id call reply.succeeds)
        (request.resume surroundings (after configuration actions).workspace reply)).record
      (some (request.resume surroundings (after configuration actions).workspace reply).request) := by
  have ordered := ordered_after configuration actions
  cases inquires with
  | unasked unasked undecided =>
    cases undecided with
    | writing staged purpose unreturned =>
      exact .of_writing inquirer ordered began waits calls fits unasked unreturned
    | indexing staged position wait step granted opened =>
      have serves := ordered.serves began waits
      cases calls
      cases reply with
      | finished success =>
        exact .of_afterIndexing inquirer.question (serves.aim _ rfl) (inquirer.own staged (serves.staged staged rfl))
          (Indexing.resume_events step) rfl unasked (granted.append _)
          (.inl (List.mem_append_left _ (List.mem_append_left _ opened))) rfl
      | _ => cases step <;> cases fits
    | declined => cases calls
  | asked asked decided =>
    cases decided with
    | asking asking =>
      obtain rfl := Option.some.inj (asking.symm.trans calls)
      exact .of_asking inquirer ordered began waits calls fits asked
    | removing staged answered =>
      cases calls
      cases reply with
      | finished success => exact .asked (asked.append (inquiries_stretch rfl)) (.finished (answered.append _))
      | _ => cases fits
    | finished => cases calls

/-- A request that is dropped asks no more. -/
theorem Inquires.dropped (inquires : Inquires configuration id demand artifact question actions record left)
    (last : List Entry) (quiet : inquiries id last = []) (later : List Action) :
    Inquires configuration id demand artifact question (actions ++ later) (record ++ last) none := by
  cases inquires with
  | unasked none _ => exact .unasked (by rw [inquiries_append, none, quiet]; rfl) .dropped
  | asked asked _ => exact .asked (asked.append quiet) .dropped

end Inquires

theorem about_of_fresh (fresh : id ∉ names (after configuration actions).record) :
    about id (after configuration actions).record = [] := by
  rw [about, List.filter_eq_nil_iff]
  intro entry member same
  exact fresh (of_decide_eq_true same ▸ actor_mem_names configuration actions entry member)

/-- In every run, a request on a tagged document keeps to its one question. -/
theorem inquires_after (inquirer : Inquirer configuration demand artifact question) (actions : List Action)
    (began : .began id demand ∈ (after configuration actions).record) :
    ∃ left, LivesAs configuration (after configuration actions) id demand left ∧
      Inquires configuration id demand artifact question actions (after configuration actions).record left := by
  refine lives_along (motive := fun actions left => Inquires configuration id demand artifact question actions
    (after configuration actions).record left) ?_ ?_ ?_ ?_ actions began
  · intro actions fresh
    rw [after_concat, step_begin fresh]
    exact .of_starts inquirer (ordered_after configuration actions) (about_of_fresh fresh)
  · intro actions request call surroundings reply inquires began waits calls fits
    rw [after_concat, step_reply waits calls fits]
    exact inquires.of_reply inquirer began waits calls fits
  · intro actions request inquires
    rw [after_concat]
    cases waits : (after configuration actions).waiting id with
    | none =>
      rw [step_drop_idle waits]
      simpa using inquires.dropped [] rfl [.drop id]
    | some waiting =>
      rw [step_drop waits]
      exact inquires.dropped [.dropped id] rfl [.drop id]
  · intro actions action left inquires same
    obtain ⟨more, grown⟩ := record_prefix configuration actions [action]
    rw [← grown] at same ⊢
    exact inquires.append (about_eq_nil_of_append same) [action]

/-- A request on a tagged document that has ended has asked the language service exactly if it was the newest of
its lane when it was told that its artifact is written. It asks once. If it is the newest when it asks, nobody else
has changed the artifact since it wrote it; but a request for suggestions that has opened a view asks in any case.
Without a question the answer is that of a request about which nothing is done, and with one it is what the service
replies, whoever is the newest by then. -/
theorem asks_if_newest_when_written (configuration : Configuration) (actions : List Action) {id : ℕ}
    {demand : Demand} {tag : TypeTag} {artifact : Artifact} {question : Call}
    (began : .began id demand ∈ (after configuration actions).record)
    (json : demand.document.isJson = true)
    (tagged : TypeTag.ofText? demand.document.text.toList = some tag)
    (built : artifact = Artifact.ofDocument demand.document.id demand.document.text tag
      configuration.artifactFileName)
    (asks : demand.inquiry? artifact = some question) :
    let record := (after configuration actions).record
    let lane : Lane := ⟨.checker, artifact.path.components⟩
    (inquiries id record = [] ∧ ∀ answer, .ended id answer ∈ record →
      answer = demand.declined ∧ ∀ since, ¬ Granted configuration id artifact record since) ∨
    ∃ past future, record = past ++ .did id (.called question) :: future ∧ inquiries id past = [] ∧
      inquiries id future = [] ∧
      (∃ since, Granted configuration id artifact past since ∧
        (newest? configuration lane past = some id ∨
          (∃ document position, demand = .complete document position) ∧
            .did id (.called (.openView artifact.path)) ∈ since)) ∧
      (newest? configuration lane past = some id → ∀ first content between other change,
        past = first ++ .did id (.called (.write artifact.path content)) :: between → other ≠ id →
        change.changes?.map Path.components = some artifact.path.components → .did other change ∉ between) ∧
      ∀ answer, .ended id answer ∈ record → Answered configuration id demand question actions answer := by
  obtain ⟨left, lives, inquires⟩ := inquires_after (.of_tagged json tagged built asks) actions began
  cases inquires with
  | unasked unasked undecided =>
    refine .inl ⟨unasked, fun answer ended => ?_⟩
    obtain rfl := lives.ended answer ended
    cases undecided with
    | declined refused => exact ⟨rfl, refused⟩
  | asked asked decided =>
    obtain ⟨past, future, split, first, last, may⟩ := asked
    refine .inr ⟨past, future, split, first, last, may, ?_, fun answer ended => ?_⟩
    · rintro newest start content between other change rfl apart changes
      exact (ordered_after configuration actions).undisturbed_of_newest split newest apart changes
    · obtain rfl := lives.ended answer ended
      cases decided with
      | asking calls => cases calls
      | finished answered => exact answered

/-- A property that the language service suggests. -/
def sampleItem : CompletionItem := ⟨.plain "x", .property, none, none, false⟩

/-- Suggestions for the sample document, for which a view has been opened when another request begins. -/
def overtakenWhileIndexing : List Action :=
  [.begin 0 (.complete sampleDocument .start), .reply 0 sampleSurroundings (.finished true),
    .begin 1 (.hover sampleDocument .start), .reply 0 sampleSurroundings (.finished true),
    .reply 0 sampleSurroundings (.finished true), .reply 0 sampleSurroundings (.items [sampleItem])]

/-- A request that is overtaken while its artifact is indexed still asks about the artifact, which is another's
by then, and answers what the service replies. -/
theorem asks_if_newest_when_written_overtaken :
    ∃ run artifact, run = after .default overtakenWhileIndexing ∧
      artifact = Artifact.ofDocument sampleDocument.id sampleDocument.text ⟨"m", "T"⟩ Artifact.defaultFileName ∧
      .began 0 (.complete sampleDocument .start) ∈ run.record ∧
      run.record = run.record.take 12 ++
        .did 0 (.called (.completions artifact.path ⟨2, 0⟩)) :: run.record.drop 13 ∧
      newest? .default ⟨.checker, artifact.path.components⟩ (run.record.take 12) = some 1 ∧
      .ended 0 (.items [sampleItem.shaped false]) ∈ run.record ∧
      Answered .default 0 (.complete sampleDocument .start)
        (.completions artifact.path (Position.start.down artifact.headerLines)) overtakenWhileIndexing
        (.items [sampleItem.shaped false]) := by
  obtain ⟨run, named⟩ : ∃ run, run = after .default overtakenWhileIndexing := ⟨_, rfl⟩
  obtain ⟨artifact, built⟩ : ∃ artifact, artifact =
      Artifact.ofDocument sampleDocument.id sampleDocument.text ⟨"m", "T"⟩ Artifact.defaultFileName := ⟨_, rfl⟩
  have began : .began 0 (.complete sampleDocument .start) ∈ run.record := by
    rw [named]
    decide +kernel
  have asked : run.record = run.record.take 12 ++
      .did 0 (.called (.completions artifact.path ⟨2, 0⟩)) :: run.record.drop 13 := by
    rw [named, built]
    decide +kernel
  have newest : newest? .default ⟨.checker, artifact.path.components⟩ (run.record.take 12) = some 1 := by
    rw [named, built]
    decide +kernel
  have ended : .ended 0 (.items [sampleItem.shaped false]) ∈ run.record := by
    rw [named]
    decide +kernel
  have tagged : TypeTag.ofText? sampleDocument.text.toList = some ⟨"m", "T"⟩ := by decide +kernel
  refine ⟨run, artifact, named, built, began, asked, newest, ended, ?_⟩
  rw [named] at began ended
  rcases asks_if_newest_when_written .default overtakenWhileIndexing began rfl tagged built rfl with
    ⟨-, declines⟩ | ⟨past, future, -, -, -, -, -, answers⟩
  · exact absurd (declines _ ended).1 (by simp [Demand.declined])
  · exact answers _ ended

end Run
end TypedJson
