import TypedJson.Proofs.Run.LatestText

/-! # Suggestions on documents without a tag

A request for suggestions on a document without a tag asks the language service about the document
itself, which may bring it to make such a request again. The workspace lists the documents on which one is
under way, and turns others away from them. `Attended` says that the list is exact: each request enters
its document when it asks and takes it off on every way out, and nobody takes off an entry of another.
-/

namespace TypedJson

/-- The document, by its components, on which a request asks for suggestions because it has no tag. -/
def Request.asksOn? : Request → Option (List Component)
  | completingUntagged id _ => some id.components
  | _ => none

/-- What becomes of the list of documents when a request that asks on one document or none goes on to ask
on another one or none. -/
inductive Handover (listed : List (List Component)) :
    Option (List Component) → Option (List Component) → List (List Component) → Prop
  | keep : Handover listed none none listed
  | enter {key : List Component} (free : key ∉ listed) : Handover listed none (some key) (key :: listed)
  | leave {key : List Component} : Handover listed (some key) none (listed.erase key)

section Handover

variable {surroundings : Surroundings} {workspace : Workspace} {demand : Demand} {request : Request}
  {reply : Reply} {turn : Turn}

theorem Workspace.issue_completing (workspace : Workspace) (lane : Lane) :
    (workspace.issue lane).completing = workspace.completing := by
  rcases lane with ⟨_ | _, key⟩ <;> rfl

/-- A request that begins enters its document or leaves the list alone. -/
theorem Starts.handover (starts : Starts workspace demand turn) :
    Handover workspace.completing none turn.request.asksOn? turn.workspace.completing := by
  cases starts with
  | aside => exact .keep
  | ask _ _ free => exact .enter (by simpa using free)
  | malformed draws | write draws | resolve draws =>
    simp only [Turn.finish, Turn.await, draws.after, Workspace.issue_completing]
    exact .keep

/-- A request that asks about a document without a tag takes the document off when it goes on, and all
others leave the list alone. -/
theorem Continues.handover (continues : Continues surroundings workspace request reply turn) :
    Handover workspace.completing request.asksOn? turn.request.asksOn? turn.workspace.completing := by
  cases continues with
  | index before =>
    have aside : request.asksOn? = none := by
      rcases before with ⟨rfl, -⟩ | ⟨step, rfl⟩ <;> rfl
    rw [aside, Workspace.afterIndexing]
    split <;> exact .keep
  | suggested | looked =>
    simp only [Workspace.cleanUp]
    split <;> exact .keep
  | answered => exact .leave
  | _ => exact .keep

/-- A request that is dropped takes its document off as well. -/
theorem Request.handover_cancel (workspace : Workspace) (request : Request) :
    Handover workspace.completing request.asksOn? none (request.cancel workspace).completing := by
  cases request <;> first | exact .leave | exact .keep

end Handover

/-- The list names each document on which someone asks once, and nobody else asks on it. -/
structure Attended (listed : List (List Component)) (asking : ℕ → Option (List Component)) : Prop where
  once : listed.Nodup
  exact : ∀ key, key ∈ listed ↔ ∃ id, asking id = some key
  alone : ∀ key id other, asking id = some key → asking other = some key → id = other

/-- A handover of one request keeps the list exact. -/
theorem Attended.update {listed listed' : List (List Component)} {asking : ℕ → Option (List Component)}
    (attended : Attended listed asking) {id : ℕ} {asks : Option (List Component)}
    (handover : Handover listed (asking id) asks listed') :
    Attended listed' (Function.update asking id asks) := by
  generalize before : asking id = asked at handover
  cases handover with
  | keep => rwa [← before, Function.update_eq_self]
  | @enter key free =>
    -- nobody else asks on the document, since it was not in the list
    have unasked (other : ℕ) : asking other ≠ some key :=
      fun asks => free ((attended.exact key).mpr ⟨other, asks⟩)
    constructor
    case once => exact List.nodup_cons.mpr ⟨free, attended.once⟩
    case exact =>
      intro key'
      rw [List.mem_cons, attended.exact]
      constructor
      · rintro (rfl | ⟨other, asks⟩)
        · exact ⟨id, Function.update_self ..⟩
        · refine ⟨other, ?_⟩
          rw [Function.update_of_ne (by rintro rfl; simp [before] at asks), asks]
      · rintro ⟨other, asks⟩
        by_cases same : other = id
        · subst same
          rw [Function.update_self, Option.some.injEq] at asks
          exact .inl asks.symm
        · rw [Function.update_of_ne same] at asks
          exact .inr ⟨other, asks⟩
    case alone =>
      intro key' first second asks asks'
      simp only [Function.update_apply] at asks asks'
      split_ifs at asks asks' with same same' same'
      · rw [same, same']
      · rw [← asks] at asks'
        exact (unasked second asks').elim
      · rw [← asks'] at asks
        exact (unasked first asks).elim
      · exact attended.alone key' first second asks asks'
  | @leave key =>
    have other {holder : ℕ} {key' : List Component}
        (asks : Function.update asking id none holder = some key') : holder ≠ id ∧ asking holder = some key' := by
      by_cases same : holder = id
      · subst same
        simp at asks
      · exact ⟨same, by rwa [Function.update_of_ne same] at asks⟩
    constructor
    case once => exact attended.once.erase key
    case exact =>
      intro key'
      rw [attended.once.mem_erase_iff, attended.exact]
      constructor
      · rintro ⟨different, holder, asks⟩
        refine ⟨holder, ?_⟩
        rw [Function.update_of_ne ?_, asks]
        rintro rfl
        exact different (Option.some.inj (asks.symm.trans before))
      · rintro ⟨holder, asks⟩
        obtain ⟨different, asks⟩ := other asks
        refine ⟨?_, holder, asks⟩
        rintro rfl
        exact different (attended.alone key' holder id asks before)
    case alone =>
      intro key' first second asks asks'
      exact attended.alone key' first second (other asks).2 (other asks').2

namespace Run

variable {configuration : Configuration} {run next : Run} {id holder : ℕ} {key : List Component}

/-- The document without a tag on which a request of a run asks for suggestions. -/
def asking (run : Run) (id : ℕ) : Option (List Component) := (run.waiting id).bind Request.asksOn?

/-- A request of a run waits for suggestions of the language service on a document without a tag. -/
def AsksOn (run : Run) (document : Path) (id : ℕ) : Prop :=
  ∃ path position, run.waiting id = some (.completingUntagged path position) ∧
    path.components = document.components

theorem asksOn_iff {document : Path} : run.AsksOn document id ↔ run.asking id = some document.components := by
  simp only [AsksOn, asking, Option.bind_eq_some_iff]
  constructor
  · rintro ⟨path, position, waits, same⟩
    exact ⟨_, waits, congrArg some same⟩
  · rintro ⟨request, waits, asks⟩
    cases request <;> first | exact ⟨_, _, waits, Option.some.inj asks⟩ | cases asks

theorem asking_follow {heading : Entry} {turn : Turn} :
    (run.follow id heading turn).asking = Function.update run.asking id turn.request.asksOn? := by
  funext other
  have remains : (remaining turn.request).bind Request.asksOn? = turn.request.asksOn? := by
    cases turn.request <;> rfl
  by_cases same : other = id
  · subst same
    simp [asking, follow, remains]
  · simp [asking, follow, Function.update_of_ne same]

theorem asking_abandon {request : Request} :
    (run.abandon id request).asking = Function.update run.asking id none := by
  funext other
  by_cases same : other = id
  · subst same
    simp [asking, abandon]
  · simp [asking, abandon, Function.update_of_ne same]

theorem Ordered.waiting_of_fresh (ordered : Ordered configuration run) (fresh : id ∉ names run.record) :
    run.waiting id = none := by
  cases waits : run.waiting id with
  | none => rfl
  | some request => exact (ordered.ne_of_fresh fresh waits rfl).elim

theorem attended_after (configuration : Configuration) (actions : List Action) :
    Attended (after configuration actions).workspace.completing (after configuration actions).asking := by
  refine (after_induction (motive := fun run => Ordered configuration run ∧
    Attended run.workspace.completing run.asking) ⟨ordered_empty, ?_⟩ ?_ actions).2
  · exact ⟨List.nodup_nil, fun key => by simp [empty, Workspace.empty, asking], fun _ _ _ asks => by cases asks⟩
  rintro run action next ⟨ordered, attended⟩ advances
  refine ⟨ordered.advance advances, ?_⟩
  cases advances with
  | begin fresh =>
    rw [asking_follow]
    apply attended.update
    rw [asking, ordered.waiting_of_fresh fresh]
    exact (Demand.starts run.workspace _).handover
  | reply waits calls fits =>
    rw [asking_follow]
    apply attended.update
    rw [asking, waits]
    exact (Request.continues calls fits).handover
  | drop waits =>
    rw [asking_abandon]
    apply attended.update
    rw [asking, waits]
    exact Request.handover_cancel run.workspace _

theorem mem_completing_iff {document : Path} (attended : Attended run.workspace.completing run.asking) :
    document.components ∈ run.workspace.completing ↔ ∃ id, run.AsksOn document id := by
  simp only [attended.exact, asksOn_iff]

/-- A step changes what at most one request waits for. -/
theorem Advances.waiting_eq {action : Action} (advances : Advances run action next) :
    ∃ id, ∀ other, other ≠ id → next.waiting other = run.waiting other := by
  cases advances with
  | begin | reply | drop => exact ⟨_, fun other different => Function.update_of_ne different ..⟩

/-- While someone asks on a document without a tag, others are turned away without a trace. -/
theorem turns_away (attended : Attended run.workspace.completing run.asking)
    (ordered : Ordered configuration run) {path : Path} {document : Document} {position : Position}
    (asks : run.AsksOn path holder) (fresh : id ∉ names run.record)
    (same : document.id.components = path.components)
    (untagged : TypeTag.ofText? document.text.toList = none) :
    run.step (.begin id (.complete document position)) =
      { run with record := run.record ++ [.began id (.complete document position), .ended id (.items [])] } := by
  have listed : document.id.components ∈ run.workspace.completing := by
    rw [same]
    exact (mem_completing_iff attended).mpr ⟨holder, asks⟩
  have staging : run.workspace.stage .checker document = none :=
    @Demand.stage_eq_none run.workspace (.complete document position) untagged
  have turn : (Demand.complete document position).start run.workspace =
      .finish run.workspace [] (.items []) := by
    simp [Demand.start, Workspace.complete, staging, listed]
  rw [step_begin fresh, turn, follow]
  simp only [Turn.finish, remaining, trail, List.map_nil, List.nil_append]
  rw [Function.update_eq_self_iff.mpr (ordered.waiting_of_fresh fresh).symm]

/-- When nobody asks on a document without a tag, a request for suggestions asks. -/
theorem lets_in (attended : Attended run.workspace.completing run.asking) {document : Document}
    {position : Position} (free : ∀ holder, ¬ run.AsksOn document.id holder) (fresh : id ∉ names run.record)
    (json : document.isJson = true) (untagged : TypeTag.ofText? document.text.toList = none) :
    run.step (.begin id (.complete document position)) =
      run.follow id (.began id (.complete document position))
        (.await { run.workspace with completing := document.id.components :: run.workspace.completing } []
          (.completingUntagged document.id position)) := by
  have unlisted : document.id.components ∉ run.workspace.completing := by
    rw [mem_completing_iff attended]
    rintro ⟨holder, asks⟩
    exact free holder asks
  have staging : run.workspace.stage .checker document = none :=
    @Demand.stage_eq_none run.workspace (.complete document position) untagged
  rw [step_begin fresh]
  simp [Demand.start, Workspace.complete, json, staging, unlisted]

/-- In every run the workspace lists a document exactly while one request, and no other, waits for
suggestions on it without a tag. Until then others get an empty list and call nobody. After that request has
ended or been dropped, nobody asks on the document, and then the next request asks and is answered. -/
theorem untagged_suggestions_exclusive (configuration : Configuration) (actions : List Action) :
    let run := after configuration actions
    (∀ path : Path, path.components ∈ run.workspace.completing ↔ ∃! id, run.AsksOn path id) ∧
    (∀ path id other, run.AsksOn path id → run.AsksOn path other → id = other) ∧
    (∀ path holder, run.AsksOn path holder → ∀ id document position, id ∉ names run.record →
      document.id.components = path.components → TypeTag.ofText? document.text.toList = none →
      run.step (.begin id (.complete document position)) =
        { run with
          record := run.record ++ [.began id (.complete document position), .ended id (.items [])] }) ∧
    (∀ path holder action, run.AsksOn path holder → (run.step action).waiting holder = none →
      ∀ id, ¬ (run.step action).AsksOn path id) ∧
    ∀ id document position, (∀ holder, ¬ run.AsksOn document.id holder) → id ∉ names run.record →
      document.isJson = true → TypeTag.ofText? document.text.toList = none →
      let asked := run.step (.begin id (.complete document position))
      asked.AsksOn document.id id ∧
        asked.record = run.record ++
          [.began id (.complete document position), .did id (.called (.completions document.id position))] ∧
        ∀ surroundings items, (asked.step (.reply id surroundings (.items items))).record = asked.record ++
          [.returned id (.completions document.id position) true,
            .ended id (.items (CompletionItem.forUntagged items))] := by
  intro run
  have ordered : Ordered configuration run := ordered_after configuration actions
  have attended : Attended run.workspace.completing run.asking := attended_after configuration actions
  have alone (path : Path) (id other : ℕ) (asks : run.AsksOn path id) (asks' : run.AsksOn path other) :
      id = other := attended.alone _ id other (asksOn_iff.mp asks) (asksOn_iff.mp asks')
  refine ⟨?_, alone, ?_, ?_, ?_⟩
  · intro path
    rw [mem_completing_iff attended]
    constructor
    · rintro ⟨id, asks⟩
      exact ⟨id, asks, fun other asks' => alone path other id asks' asks⟩
    · rintro ⟨id, asks, -⟩
      exact ⟨id, asks⟩
  · intro path holder asks id document position fresh same untagged
    exact turns_away attended ordered asks fresh same untagged
  · intro path holder action asks gone id asks'
    have ⟨_, _, waits, _⟩ := asks
    rcases step_eq_or_advances run action with same | advances
    · rw [same, waits] at gone
      cases gone
    -- the step was one of the request that had asked, so nobody else has begun to ask
    obtain ⟨changed, others⟩ := advances.waiting_eq
    obtain rfl : holder = changed := by
      by_contra different
      rw [others holder different, waits] at gone
      cases gone
    by_cases own : id = holder
    · obtain ⟨_, _, waits', -⟩ := asks'
      rw [own, gone] at waits'
      cases waits'
    · obtain ⟨path', position', waits', same⟩ := asks'
      rw [others id own] at waits'
      exact own (alone path id holder ⟨path', position', waits', same⟩ asks)
  · intro id document position free fresh json untagged asked
    have began : asked = _ := lets_in attended free fresh json untagged
    have waits : asked.waiting id = some (.completingUntagged document.id position) := by
      rw [began]
      exact Function.update_self ..
    refine ⟨⟨_, _, waits, rfl⟩, by rw [began]; rfl, ?_⟩
    intro surroundings items
    rw [step_reply waits rfl rfl]
    rfl

/-- The document without a tag under another spelling of its path. -/
def respelledDocument : Document := { untaggedDocument with id := ⟨"a.json/"⟩ }

/-- A request for suggestions on the document without a tag begins. -/
def askedOnce : List Action := [.begin 0 (.complete untaggedDocument .start)]

/-- A request that the language service makes while it is asked is turned away, whatever the spelling of
the path. Once the outer request has been dropped the next one asks. -/
theorem untagged_suggestions_exclusive_nested :
    ∃ run, run = after .default askedOnce ∧ run.AsksOn untaggedDocument.id 0 ∧
      run.step (.begin 1 (.complete respelledDocument .start)) =
        { run with record := run.record ++ [.began 1 (.complete respelledDocument .start), .ended 1 (.items [])] } ∧
      (∀ id, ¬ (run.step (.drop 0)).AsksOn untaggedDocument.id id) ∧
      ((run.step (.drop 0)).step (.begin 1 (.complete respelledDocument .start))).AsksOn respelledDocument.id 1 := by
  have untagged : TypeTag.ofText? untaggedDocument.text.toList = none := by decide +kernel
  have same : respelledDocument.id.components = untaggedDocument.id.components := by decide +kernel
  obtain ⟨-, -, -, -, first⟩ := untagged_suggestions_exclusive .default []
  obtain ⟨-, -, turned, left, -⟩ := untagged_suggestions_exclusive .default askedOnce
  obtain ⟨-, -, -, -, second⟩ := untagged_suggestions_exclusive .default (askedOnce ++ [.drop 0])
  have idle (holder : ℕ) : ¬ (after .default []).AsksOn untaggedDocument.id holder := by
    rintro ⟨_, _, waits, -⟩
    cases waits
  have asks : (after .default askedOnce).AsksOn untaggedDocument.id 0 :=
    (first 0 untaggedDocument .start idle List.not_mem_nil rfl untagged).1
  have fresh : 1 ∉ names (after .default askedOnce).record := by decide +kernel
  have gone : ((after .default askedOnce).step (.drop 0)).waiting 0 = none := by
    obtain ⟨_, _, waits, -⟩ := asks
    simp [step_drop waits, abandon]
  have nobody := left untaggedDocument.id 0 (.drop 0) asks gone
  refine ⟨_, rfl, asks, turned untaggedDocument.id 0 asks 1 respelledDocument .start fresh same untagged,
    nobody, ?_⟩
  refine (second 1 respelledDocument .start ?_ (by decide +kernel) rfl untagged).1
  rintro holder ⟨path, position, waits, equal⟩
  exact nobody holder ⟨path, position, waits, equal.trans same⟩

end Run
end TypedJson
