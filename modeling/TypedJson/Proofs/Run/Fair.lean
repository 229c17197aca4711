import TypedJson.Proofs.Run.Record
import TypedJson.Proofs.Run.Turns

/-! # Fair stretches

Requests on tagged documents look at their tickets before each step that can be seen from outside. A
stretch is fair to a staged request if its guarded events happen while the ticket is current, what it does
concerns its artifact and its document, and what remains of it is still on the way to what was demanded.
Every stretch is fair, and only a request that begins changes the gates.
-/

namespace TypedJson

/-- What a request on a tagged document does only while its ticket is current: all calls apart from
those that ask for suggestions or get the artifact indexed, and everything that the host is told. -/
def Event.isGuarded : Event → Bool
  | .called (.write _ _) | .called (.remove _) | .called (.check _) | .called (.resolve _ _)
  | .called (.hovers _ _) => true
  | .published _ _ | .notified _ => true
  | _ => false

/-- The file that an event writes or removes. -/
def Event.changes? : Event → Option Path
  | .called (.write path _) | .called (.remove path) => some path
  | _ => none

/-- What a request in a lane does about files is about the artifact of the lane, and only a validation
publishes, and that for its document. -/
structure Event.Concerns (demand : Demand) (lane : Lane) (event : Event) : Prop where
  files : ∀ path, event.changes? = some path → lane = ⟨.checker, path.components⟩
  publishes : ∀ path diagnostics, event = .published path diagnostics →
    ∃ mode document, demand = .validate mode document ∧ document.id = path

theorem Event.not_isGuarded_of_isIndexing {event : Event} (quiet : event.isIndexing = true) :
    event.isGuarded = false := by
  unfold Event.isIndexing at quiet
  split at quiet <;> first | rfl | cases quiet

theorem Event.isGuarded_of_changes? {event : Event} {path : Path} (changes : event.changes? = some path) :
    event.isGuarded = true := by
  unfold Event.changes? at changes
  split at changes <;> first | rfl | cases changes

/-- An event that is not guarded concerns nothing in particular. -/
theorem Event.concerns_of_not_isGuarded {demand : Demand} {lane : Lane} {event : Event}
    (unguarded : event.isGuarded = false) : event.Concerns demand lane where
  files := fun _ changes => by simp [Event.isGuarded_of_changes? changes] at unguarded
  publishes := by
    rintro path diagnostics rfl
    cases unguarded

namespace Request

/-- The staged request that a request on a tagged document works on. -/
def staged? : Request → Option Staged
  | writing staged _ | checking staged | resolving staged _ | indexing staged _ _ _ | completing staged _
  | hovering staged _ | removing staged _ => some staged
  | completingUntagged _ _ | finished _ => none

/-- What the artifact was written for, as far as a request still knows it. -/
def aim? : Request → Option (Option Purpose)
  | writing _ purpose => some (some purpose)
  | checking _ => some (some .validation)
  | resolving _ _ => some none
  | indexing _ position _ _ | completing _ position => some (some (.completion position))
  | hovering _ position => some (some (.hover position))
  | removing _ _ | completingUntagged _ _ | finished _ => none

/-- A waiting request is on the way to what its demand asks for. -/
structure Serves (configuration : Configuration) (demand : Demand) (request : Request) : Prop where
  staged : ∀ staged, request.staged? = some staged → staged.Serves configuration demand
  sound : ∀ staged, request.staged? = some staged → demand.isMalformed = false
  aim : ∀ purpose?, request.aim? = some purpose? → demand.purpose? = purpose?
  writes : ∀ staged answer, request = .removing staged answer → demand.purpose?.isSome = true
  aside : request.staged? = none → demand.lane? configuration = none

end Request

section Serves

variable {configuration : Configuration} {demand : Demand} {staged : Staged}

/-- A request that still knows what its artifact is for is on its way if that is what was demanded. -/
theorem Staged.Serves.onWay {request : Request} {purpose? : Option Purpose}
    (serves : staged.Serves configuration demand) (sound : demand.isMalformed = false)
    (works : request.staged? = some staged) (aims : request.aim? = some purpose?)
    (purposed : demand.purpose? = purpose?) : request.Serves configuration demand where
  staged := fun _ other => Option.some.inj (works.symm.trans other) ▸ serves
  sound := fun _ _ => sound
  aim := fun _ other => purposed.trans (Option.some.inj (aims.symm.trans other))
  writes := by
    rintro staged answer rfl
    cases aims
  aside := fun none => by simp [works] at none

/-- A request that removes its artifact is on its way if an artifact was to be written. -/
theorem Staged.Serves.removing {answer : Answer} (serves : staged.Serves configuration demand)
    (sound : demand.isMalformed = false) (writes : demand.purpose?.isSome = true) :
    (Request.removing staged answer).Serves configuration demand where
  staged := fun _ other => Option.some.inj other ▸ serves
  sound := fun _ _ => sound
  aim := fun _ aims => by cases aims
  writes := fun _ _ _ => writes
  aside := fun none => by cases none

/-- A request on a document without a tag is in no lane. -/
theorem Request.Serves.untagged {id : Path} {position : Position}
    (unlaned : demand.lane? configuration = none) :
    (Request.completingUntagged id position).Serves configuration demand where
  staged := fun _ other => by cases other
  sound := fun _ other => by cases other
  aim := fun _ other => by cases other
  writes := fun _ _ other => by cases other
  aside := fun _ => unlaned

end Serves

theorem Demand.mode_of_purpose? {demand : Demand} (purposed : demand.purpose?.isSome = true) :
    demand.mode = .checker := by
  cases demand with
  | validate mode document =>
    cases mode with
    | checker => rfl
    | matcher => cases purposed
  | _ => rfl

/-- What writes no artifact, or writes one for the checker, is a validation. -/
theorem Demand.eq_validate_of_purpose? {demand : Demand}
    (purposed : demand.purpose? = none ∨ demand.purpose? = some .validation) :
    ∃ mode document, demand = .validate mode document := by
  cases demand with
  | validate mode document => exact ⟨mode, document, rfl⟩
  | complete | hover => rcases purposed with none | validation <;> simp [Demand.purpose?] at *

@[simp] theorem Event.concerns_notified {demand : Demand} {lane : Lane} {message : String} :
    (Event.notified message).Concerns demand lane := ⟨nofun, nofun⟩

theorem Staged.Serves.concerns_published {configuration : Configuration} {demand : Demand} {staged : Staged}
    {lane : Lane} {diagnostics : List Diagnostic} (serves : staged.Serves configuration demand)
    (purposed : demand.purpose? = none ∨ demand.purpose? = some .validation) :
    (Event.published staged.document.id diagnostics).Concerns demand lane where
  files := nofun
  publishes := by
    rintro path diagnostics ⟨⟩
    obtain ⟨mode, document, rfl⟩ := Demand.eq_validate_of_purpose? purposed
    exact ⟨mode, document, rfl, by rw [serves.document]; rfl⟩

/-- A stretch of a request keeps to the rules: guarded events happen while the ticket is current, what is
done concerns the request, and what remains is still on its way. -/
structure Turn.Fair (configuration : Configuration) (demand : Demand) (staged : Staged) (turn : Turn) :
    Prop where
  guarded : ∀ event ∈ turn.events, event.isGuarded = true → turn.workspace.isCurrent staged = true
  concerns : ∀ event ∈ turn.events, event.Concerns demand staged.lane
  remains : ∀ request, Run.remaining turn.request = some request →
    request.Serves configuration demand ∧ request.staged? = some staged

namespace Turn.Fair

variable {configuration : Configuration} {demand : Demand} {staged : Staged} {workspace : Workspace}

/-- Ending without a trace is fair. -/
theorem silent {answer : Answer} :
    Turn.Fair configuration demand staged (.finish workspace [] answer) where
  guarded := by simp [Turn.finish]
  concerns := by simp [Turn.finish]
  remains := by simp [Turn.finish, Run.remaining]

/-- Telling the host something and then ending is fair for the holder of the current ticket. -/
theorem told {events : List Event} {answer : Answer} (current : workspace.isCurrent staged = true)
    (told : ∀ event ∈ events, event.Concerns demand staged.lane) :
    Turn.Fair configuration demand staged (.finish workspace events answer) where
  guarded := fun _ _ _ => current
  concerns := told
  remains := by simp [Turn.finish, Run.remaining]

/-- The next call of a request is about its artifact, if it is about a file. -/
theorem concerns_call {request : Request} {call : Call} (serves : request.Serves configuration demand)
    (works : request.staged? = some staged) (calls : request.call? = some call) :
    (Event.called call).Concerns demand staged.lane := by
  -- of the calls only a write and a removal change a file, and both are about the artifact
  have writes (purposed : demand.purpose?.isSome = true) :
      staged.lane = ⟨.checker, staged.artifact.path.components⟩ :=
    (serves.staged staged works).lane_eq
      ((serves.staged staged works).mode.trans (Demand.mode_of_purpose? purposed))
  refine ⟨fun path changes => ?_, nofun⟩
  cases request with
  | writing other purpose =>
    obtain rfl := Option.some.inj works
    cases calls
    cases changes
    exact writes (by rw [serves.aim _ rfl]; rfl)
  | removing other answer =>
    obtain rfl := Option.some.inj works
    cases calls
    cases changes
    exact writes (serves.writes _ _ rfl)
  | indexing other position wait step =>
    cases calls
    cases step <;> cases changes
  | finished answer => cases works
  | completingUntagged id position => cases works
  | _ =>
    cases calls
    cases changes

/-- Making the next call after telling the host something is fair for the holder of the current ticket. -/
theorem await {events : List Event} {request : Request} (current : workspace.isCurrent staged = true)
    (told : ∀ event ∈ events, event.Concerns demand staged.lane)
    (serves : request.Serves configuration demand) (works : request.staged? = some staged) :
    Turn.Fair configuration demand staged (.await workspace events request) where
  guarded := fun _ _ _ => current
  concerns := by
    intro event member
    rcases List.mem_append.mp member with early | late
    · exact told event early
    · obtain ⟨call, calls, rfl⟩ := List.mem_map.mp late
      exact concerns_call serves works (Option.mem_toList.mp calls)
  remains := by
    intro remaining remains
    cases request <;> cases remains <;> exact ⟨serves, works⟩

/-- Getting the artifact indexed, and asking for suggestions after that, is fair for everyone. -/
theorem afterIndexing {position : Position} {wait : IndexWait} {stretch : Indexing.Stretch}
    (quiet : stretch.events.all Event.isIndexing = true) (serves : staged.Serves configuration demand)
    (purposed : demand.purpose? = some (.completion position)) (sound : demand.isMalformed = false) :
    Turn.Fair configuration demand staged (workspace.afterIndexing staged position wait stretch) := by
  have unguarded : ∀ event ∈ (workspace.afterIndexing staged position wait stretch).events,
      event.isGuarded = false := by
    intro event member
    simp only [Workspace.afterIndexing] at member
    split at member
    · exact Event.not_isGuarded_of_isIndexing (List.all_eq_true.mp quiet event member)
    · rcases List.mem_append.mp member with early | called
      · exact Event.not_isGuarded_of_isIndexing (List.all_eq_true.mp quiet event early)
      · obtain rfl := List.mem_singleton.mp called
        rfl
  constructor
  case guarded =>
    intro event member guarded
    simp [unguarded event member] at guarded
  case concerns =>
    intro event member
    exact Event.concerns_of_not_isGuarded (unguarded event member)
  case remains =>
    intro request remains
    simp only [Workspace.afterIndexing] at remains
    split at remains <;> cases remains <;> exact ⟨serves.onWay sound rfl rfl purposed, rfl⟩

/-- Removing the artifact, or leaving it to a newer request, is fair. -/
theorem cleanUp {answer : Answer} (serves : staged.Serves configuration demand)
    (writes : demand.purpose?.isSome = true) (sound : demand.isMalformed = false) :
    Turn.Fair configuration demand staged (workspace.cleanUp staged [] answer) := by
  cases current : workspace.isCurrent staged with
  | false =>
    rw [Workspace.cleanUp_stale current]
    exact silent
  | true =>
    rw [Workspace.cleanUp_current current]
    exact await current (by simp) (serves.removing sound writes) rfl

end Turn.Fair

section Fair

variable {workspace : Workspace} {surroundings : Surroundings} {demand : Demand} {request : Request}
  {reply : Reply} {turn : Turn} {staged : Staged}

/-- A request without a lane begins without a guarded event and leaves the gates as they are. -/
theorem Starts.aside_of_lane? (starts : Starts workspace demand turn)
    (unlaned : demand.lane? workspace.configuration = none) :
    turn.workspace.configuration = workspace.configuration ∧ turn.workspace.gate = workspace.gate ∧
      (∀ event ∈ turn.events, event.isGuarded = false) ∧
      ∀ request, Run.remaining turn.request = some request →
        request.Serves workspace.configuration demand ∧ request.staged? = none := by
  cases starts with
  | aside => exact ⟨rfl, rfl, by simp [Turn.finish], by simp [Turn.finish, Run.remaining]⟩
  | ask =>
    refine ⟨rfl, ?_, by simp [Turn.await, Request.call?, Event.isGuarded], ?_⟩
    · funext mode
      cases mode <;> rfl
    · rintro request ⟨⟩
      exact ⟨.untagged unlaned, rfl⟩
  | malformed draws | write draws | resolve draws =>
    rw [draws.serves.lane] at unlaned
    cases unlaned

/-- A request with a lane draws a ticket, and its first stretch is fair. -/
theorem Starts.fair (starts : Starts workspace demand turn) {lane : Lane}
    (laned : demand.lane? workspace.configuration = some lane) :
    ∃ staged, Draws workspace demand turn.workspace staged ∧
      turn.Fair workspace.configuration demand staged := by
  cases starts with
  | aside unlaned | ask unlaned =>
    rw [unlaned] at laned
    cases laned
  | malformed draws broken => exact ⟨_, draws, .told draws.isCurrent (by simp)⟩
  | write draws purposed sound =>
    exact ⟨_, draws, .await draws.isCurrent (by simp) (draws.serves.onWay sound rfl rfl purposed) rfl⟩
  | @resolve document _ _ _ draws read =>
    have sound : (Demand.validate .matcher document).isMalformed = false :=
      Demand.isMalformed_validate_iff.mpr ⟨_, read⟩
    exact ⟨_, draws, .await draws.isCurrent (by simp) (draws.serves.onWay sound rfl rfl rfl) rfl⟩

/-- Going on after a reply leaves the configuration and the gates as they are. -/
theorem Continues.gates (continues : Continues surroundings workspace request reply turn) :
    turn.workspace.configuration = workspace.configuration ∧ turn.workspace.gate = workspace.gate := by
  cases continues with
  | index _ _ =>
    simp only [Workspace.afterIndexing]
    split <;> exact ⟨rfl, by funext mode; cases mode <;> rfl⟩
  | suggested | looked =>
    simp only [Workspace.cleanUp]
    split <;> exact ⟨rfl, rfl⟩
  | answered => exact ⟨rfl, by funext mode; cases mode <;> rfl⟩
  | _ => exact ⟨rfl, rfl⟩

/-- A request on a tagged document goes on fairly. -/
theorem Continues.fair (continues : Continues surroundings workspace request reply turn)
    (serves : request.Serves workspace.configuration demand) (works : request.staged? = some staged) :
    turn.Fair workspace.configuration demand staged := by
  have sound := serves.sound staged works
  have stagedServes := serves.staged staged works
  cases continues with
  | unwritten | overtaken | uncheckedStale | checkedStale | unresolvedStale | resolvedStale | removed =>
    exact .silent
  | check current =>
    obtain rfl := Option.some.inj works
    exact .await current (by simp) (stagedServes.onWay sound rfl rfl (serves.aim _ rfl)) rfl
  | look current =>
    obtain rfl := Option.some.inj works
    exact .await current (by simp) (stagedServes.onWay sound rfl rfl (serves.aim _ rfl)) rfl
  | index before quiet =>
    rcases before with ⟨rfl, -⟩ | ⟨step, rfl⟩
    all_goals
      obtain rfl := Option.some.inj works
      exact .afterIndexing quiet stagedServes (serves.aim _ rfl) sound
  | unchecked current =>
    obtain rfl := Option.some.inj works
    exact .await current (by simp) (stagedServes.removing sound (by rw [serves.aim _ rfl]; rfl)) rfl
  | checked current placed =>
    obtain rfl := Option.some.inj works
    refine .await current ?_ (stagedServes.removing sound (by rw [serves.aim _ rfl]; rfl)) rfl
    simp only [Staged.publication, List.mem_append, List.mem_map, List.mem_singleton]
    rintro event (⟨message, -, rfl⟩ | rfl)
    · exact Event.concerns_notified
    · exact stagedServes.concerns_published (.inr (serves.aim _ rfl))
  | unresolved current =>
    obtain rfl := Option.some.inj works
    exact .told current (by simp)
  | resolved current =>
    obtain rfl := Option.some.inj works
    apply Turn.Fair.told current
    intro event member
    obtain rfl := List.mem_singleton.mp member
    exact stagedServes.concerns_published (.inl (serves.aim _ rfl))
  | suggested =>
    obtain rfl := Option.some.inj works
    exact .cleanUp stagedServes (by rw [serves.aim _ rfl]; rfl) sound
  | looked =>
    obtain rfl := Option.some.inj works
    exact .cleanUp stagedServes (by rw [serves.aim _ rfl]; rfl) sound
  | answered => cases works

/-- A request without a lane ends when it goes on, without a guarded event. -/
theorem Continues.aside (continues : Continues surroundings workspace request reply turn)
    (works : request.staged? = none) :
    (∀ event ∈ turn.events, event.isGuarded = false) ∧ Run.remaining turn.request = none := by
  cases continues with
  | index before =>
    rcases before with ⟨rfl, -⟩ | ⟨step, rfl⟩ <;> cases works
  | answered => exact ⟨by simp [Turn.finish], rfl⟩
  | _ => cases works

end Fair
end TypedJson
