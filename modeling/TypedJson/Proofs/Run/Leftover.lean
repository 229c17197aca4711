import TypedJson.Proofs.Run.Newest

/-! # What is left on the disk

The disk is read off the record: a file holds what was written to it last, unless it was removed after
that. The newest request of a lane is in charge of the artifact, and `Tidy` says what the artifact holds
while it waits and after it has ended. A request that begins takes the artifact over from the request
before it, and all requests remove it in the end but one kind: a validation of a text that is not JSON
ends before it does anything about the artifact, and so leaves there what it took over.
-/

namespace TypedJson

/-- What a file holds after an event. -/
def Event.leaves (key : List Component) (found : Option String) : Event → Option String
  | .called (.write path content) => if path.components = key then some content else found
  | .called (.remove path) => if path.components = key then none else found
  | _ => found

/-- What a file holds after an entry of a record. -/
def Run.Entry.leaves (key : List Component) (found : Option String) : Run.Entry → Option String
  | .did _ event => event.leaves key found
  | _ => found

/-- Nobody is dropped and no call to the file system fails. -/
def Run.Entry.isCalm : Run.Entry → Bool
  | .dropped _ => false
  | .returned _ (.write _ _) success | .returned _ (.remove _) success => success
  | _ => true

/-- What the artifact of a request holds while the request waits and is the newest of its lane. -/
def Request.holds? : Request → Option String
  | writing staged _ | checking staged | resolving staged _ | indexing staged _ _ _ | completing staged _
  | hovering staged _ => some staged.artifact.content
  | removing _ _ | completingUntagged _ _ | finished _ => none

theorem Event.leaves_of_changes? {key : List Component} {found : Option String} {event : Event}
    (apart : event.changes?.map Path.components ≠ some key) : event.leaves key found = found := by
  unfold Event.leaves
  split
  · exact if_neg fun same => apart (by simp [changes?, same])
  · exact if_neg fun same => apart (by simp [changes?, same])
  · rfl

theorem foldl_leaves_of_apart {key : List Component} {events : List Event} {found : Option String}
    (apart : ∀ event ∈ events, event.changes?.map Path.components ≠ some key) :
    events.foldl (Event.leaves key) found = found := by
  induction events with
  | nil => rfl
  | cons event rest ih =>
    rw [List.foldl_cons, Event.leaves_of_changes? (apart event (List.mem_cons_self ..))]
    exact ih fun other member => apart other (List.mem_cons_of_mem _ member)

/-- A request with a current ticket goes on with the artifact as it answers for it, and when it ends the
artifact is gone. -/
theorem Continues.leaves {configuration : Configuration} {surroundings : Surroundings}
    {workspace : Workspace} {key : List Component} {demand : Demand} {request : Request} {reply : Reply}
    {turn : Turn} {staged : Staged} (continues : Continues surroundings workspace request reply turn)
    (serves : request.Serves configuration demand) (works : request.staged? = some staged)
    (own : staged.lane = ⟨.checker, key⟩) (current : workspace.isCurrent staged = true)
    (written : ∀ staged purpose, request = .writing staged purpose → reply ≠ .finished false) :
    (∃ next, Run.remaining turn.request = some next ∧
        turn.events.foldl (Event.leaves key) request.holds? = next.holds?) ∨
      Run.remaining turn.request = none ∧ turn.events.foldl (Event.leaves key) request.holds? = none := by
  have artifact : staged.artifact.path.components = key := by
    have lane := (serves.staged staged works).lane_eq (congrArg Lane.mode own)
    rw [own, Lane.mk.injEq] at lane
    exact lane.2.symm
  have mode : demand.mode = .checker :=
    (serves.staged staged works).mode.symm.trans (congrArg Lane.mode own)
  -- whatever else is done, the removal is the last call
  have removes (events : List Event) (found : Option String) :
      (events ++ [Event.called (.remove staged.artifact.path)]).foldl (Event.leaves key) found = none := by
    simp [Event.leaves, artifact]
  have quiet {events : List Event} (indexing : events.all Event.isIndexing = true) (found : Option String) :
      events.foldl (Event.leaves key) found = found := by
    apply foldl_leaves_of_apart
    intro event member changes
    obtain ⟨path, changed, -⟩ := Option.map_eq_some_iff.mp changes
    have guarded := Event.isGuarded_of_changes? changed
    rw [Event.not_isGuarded_of_isIndexing (List.all_eq_true.mp indexing event member)] at guarded
    cases guarded
  cases continues with
  | overtaken stale | uncheckedStale stale | checkedStale stale | unresolvedStale stale
  | resolvedStale stale =>
    obtain rfl := Option.some.inj works
    simp [current] at stale
  | unwritten => exact (written _ _ rfl rfl).elim
  | check | look => exact .inl ⟨_, rfl, by simp [Turn.await, Request.call?, Event.leaves, Request.holds?]⟩
  | @index _ _ staged position wait stretch before indexing =>
    have holds : request.holds? = some staged.artifact.content := by
      rcases before with ⟨rfl, -⟩ | ⟨step, rfl⟩ <;> rfl
    simp only [Workspace.afterIndexing, holds]
    cases stretch.next with
    | some step => exact .inl ⟨_, rfl, quiet indexing _⟩
    | none =>
      refine .inl ⟨_, rfl, ?_⟩
      simp [Turn.await, Request.call?, Event.leaves, Request.holds?, quiet indexing]
  | unchecked | checked =>
    obtain rfl := Option.some.inj works
    exact .inl ⟨_, rfl, removes _ _⟩
  | unresolved | resolved =>
    obtain rfl := Option.some.inj works
    -- a request that waits for a type writes no artifact, so it is in no lane of an artifact
    obtain ⟨_, document, rfl⟩ := Demand.eq_validate_of_purpose? (.inl (serves.aim _ rfl))
    cases mode
    cases serves.aim _ rfl
  | suggested | looked =>
    obtain rfl := Option.some.inj works
    rw [Workspace.cleanUp_current current]
    exact .inl ⟨_, rfl, removes _ _⟩
  | removed => exact .inr ⟨rfl, rfl⟩
  | answered => cases works

namespace Run

variable {configuration : Configuration} {run : Run} {key : List Component}

/-- What a file holds after the writes and removals of a record. -/
def contents? (key : List Component) (record : List Entry) : Option String :=
  record.foldl (Entry.leaves key) none

/-- A file is not there exactly if each write of it is followed by a removal of it. -/
theorem contents?_eq_none_iff {record : List Entry} : contents? key record = none ↔
    ∀ past id path content future, record = past ++ .did id (.called (.write path content)) :: future →
      path.components = key → ∃ other removed, .did other (.called (.remove removed)) ∈ future ∧
        removed.components = key := by
  induction record using List.reverseRecOn with
  | nil => simp [contents?]
  | append_singleton record entry ih =>
    have last : contents? key (record ++ [entry]) = entry.leaves key (contents? key record) := by
      simp [contents?]
    rw [last]
    by_cases writes : ∃ id path content, entry = .did id (.called (.write path content)) ∧ path.components = key
    · obtain ⟨id, path, content, rfl, rfl⟩ := writes
      constructor
      · intro gone
        simp [Entry.leaves, Event.leaves] at gone
      · intro removed
        obtain ⟨other, path', member, -⟩ := removed record id path content [] rfl rfl
        cases member
    by_cases removes : ∃ id path, entry = .did id (.called (.remove path)) ∧ path.components = key
    · obtain ⟨id, path, rfl, rfl⟩ := removes
      constructor
      · intro _ past other written content future split same
        rcases concat_eq_split split with ⟨-, last, -⟩ | ⟨front, -, rfl⟩
        · cases last
        · exact ⟨id, path, List.mem_append_right _ (List.mem_singleton_self _), rfl⟩
      · intro _
        simp [Entry.leaves, Event.leaves]
    -- any other entry leaves the file as it is
    have same : entry.leaves key (contents? key record) = contents? key record := by
      cases entry with
      | did id event =>
        apply Event.leaves_of_changes?
        intro changes
        obtain ⟨path, changed, same⟩ := Option.map_eq_some_iff.mp changes
        unfold Event.changes? at changed
        split at changed <;> cases changed
        · exact writes ⟨id, path, _, rfl, same⟩
        · exact removes ⟨id, path, rfl, same⟩
      | _ => rfl
    rw [same, ih]
    constructor
    · intro removed past id path content future split own
      rcases concat_eq_split split with ⟨-, rfl, -⟩ | ⟨front, split', rfl⟩
      · exact (writes ⟨id, path, content, rfl, own⟩).elim
      · obtain ⟨other, path', member, own'⟩ := removed past id path content front split' own
        exact ⟨other, path', List.mem_append_left _ member, own'⟩
    · intro removed past id path content future split own
      obtain ⟨other, path', member, own'⟩ :=
        removed past id path content (future ++ [entry]) (by simp [split]) own
      rcases List.mem_append.mp member with early | late
      · exact ⟨other, path', early, own'⟩
      · exact (removes ⟨other, path', (List.mem_singleton.mp late).symm, own'⟩).elim

theorem foldl_leaves_trail {id : ℕ} {turn : Turn} {found : Option String} :
    (trail id turn).foldl (Entry.leaves key) found = turn.events.foldl (Event.leaves key) found := by
  rw [trail, List.foldl_append, List.foldl_map]
  cases turn.request <;> rfl

theorem contents?_follow {id : ℕ} {heading : Entry} {turn : Turn}
    (silent : ∀ found, heading.leaves key found = found) :
    contents? key (run.follow id heading turn).record =
      turn.events.foldl (Event.leaves key) (contents? key run.record) := by
  rw [follow, contents?, List.foldl_append, List.foldl_cons, silent, foldl_leaves_trail]
  rfl

/-- Only the newest request of a lane changes the artifact of the lane. -/
theorem Ordered.changes_follow {id : ℕ} {heading : Entry} {turn : Turn} {event : Event}
    (ordered : Ordered configuration (run.follow id heading turn)) (member : event ∈ turn.events)
    (changes : event.changes?.map Path.components = some key) :
    newest? configuration ⟨.checker, key⟩ (run.record ++ [heading]) = some id := by
  obtain ⟨path, changed, rfl⟩ := Option.map_eq_some_iff.mp changes
  obtain ⟨front, back, parts⟩ := List.append_of_mem member
  obtain ⟨rest, split⟩ : ∃ rest, (run.follow id heading turn).record =
      run.record ++ [heading] ++ front.map (.did id) ++ .did id event :: rest := by
    simp only [follow, trail, parts, List.map_append, List.map_cons, List.append_assoc, List.cons_append,
      List.nil_append]
    exact ⟨_, rfl⟩
  obtain ⟨demand, lane, -, -, newest, concerns⟩ :=
    ordered.holder split (Event.isGuarded_of_changes? changed)
  rw [concerns.files path changed, newest?_append] at newest
  simpa [newest?] using newest

/-- What the newest request of a lane waits for, it waits for with a current ticket of the lane. -/
theorem Ordered.staged_of_newest (ordered : Ordered configuration run) {id : ℕ} {request : Request}
    {lane : Lane} (waits : run.waiting id = some request)
    (newest : newest? configuration lane run.record = some id) :
    ∃ demand staged, .began id demand ∈ run.record ∧ request.Serves configuration demand ∧
      request.staged? = some staged ∧ staged.lane = lane ∧ run.workspace.isCurrent staged = true := by
  obtain ⟨demand, began, laned⟩ := newest?_mem newest
  have serves := ordered.serves began waits
  cases works : request.staged? with
  | none =>
    rw [serves.aside works] at laned
    cases laned
  | some staged =>
    have own : staged.lane = lane := Option.some.inj ((serves.staged staged works).lane.symm.trans laned)
    exact ⟨demand, staged, began, serves, rfl, own,
      (ordered.current id request staged waits works).mpr (own ▸ newest)⟩

/-- The artifact of a lane holds what the newest request of the lane answers for. -/
structure Tidy (configuration : Configuration) (key : List Component) (run : Run) : Prop where
  untouched : newest? configuration ⟨.checker, key⟩ run.record = none → contents? key run.record = none
  held : ∀ id request, newest? configuration ⟨.checker, key⟩ run.record = some id →
    run.waiting id = some request → contents? key run.record = request.holds?
  left : ∀ id past demand future, newest? configuration ⟨.checker, key⟩ run.record = some id →
    run.waiting id = none → run.record = past ++ .began id demand :: future →
    contents? key run.record = if demand.isMalformed then contents? key past else none

theorem tidy_empty : Tidy configuration key (empty configuration) where
  untouched := fun _ => rfl
  held := fun _ _ newest => by cases newest
  left := fun _ _ _ _ newest => by cases newest

/-- A stretch of another request leaves the artifact as it is. -/
theorem Tidy.follow_other (tidy : Tidy configuration key run) {id : ℕ} {heading : Entry} {turn : Turn}
    (ordered : Ordered configuration (run.follow id heading turn))
    (silent : ∀ found, heading.leaves key found = found)
    (quiet : newest? configuration ⟨.checker, key⟩ (run.record ++ [heading]) =
      newest? configuration ⟨.checker, key⟩ run.record)
    (other : newest? configuration ⟨.checker, key⟩ run.record ≠ some id) :
    Tidy configuration key (run.follow id heading turn) := by
  have same : contents? key (run.follow id heading turn).record = contents? key run.record := by
    rw [contents?_follow silent]
    apply foldl_leaves_of_apart
    intro event member changes
    exact other (quiet ▸ ordered.changes_follow member changes)
  have newest : newest? configuration ⟨.checker, key⟩ (run.follow id heading turn).record =
      newest? configuration ⟨.checker, key⟩ run.record := follow_newest?.trans quiet
  have waiting {holder : ℕ} (first : newest? configuration ⟨.checker, key⟩ run.record = some holder) :
      (run.follow id heading turn).waiting holder = run.waiting holder :=
    Function.update_of_ne (by rintro rfl; exact other first) ..
  constructor
  case untouched =>
    intro none
    rw [same]
    exact tidy.untouched (newest ▸ none)
  case held =>
    intro holder request first waits
    rw [newest] at first
    rw [same]
    exact tidy.held holder request first (waiting first ▸ waits)
  case left =>
    intro holder past demand future first gone split
    rw [newest] at first
    rw [same]
    -- the holder began before the stretch, so the stretch is no part of what was before its beginning
    obtain ⟨demand', began, -⟩ := newest?_mem first
    obtain ⟨before, between, early⟩ := List.append_of_mem began
    have whole : (run.follow id heading turn).record =
        before ++ .began holder demand' :: (between ++ heading :: trail id turn) := by
      simp [follow, early]
    obtain ⟨rfl, rfl, -⟩ := split_unique ordered.once split whole
    exact tidy.left holder past demand between first (waiting first ▸ gone) early

/-- A stretch of the newest request of the lane leaves the artifact as the request answers for it. -/
theorem Tidy.follow_newest {id : ℕ} {heading : Entry} {turn : Turn}
    (newest : newest? configuration ⟨.checker, key⟩ (run.record ++ [heading]) = some id)
    (silent : ∀ found, heading.leaves key found = found)
    (held : ∀ request, remaining turn.request = some request →
      turn.events.foldl (Event.leaves key) (contents? key run.record) = request.holds?)
    (left : ∀ past demand future, remaining turn.request = none →
      (run.follow id heading turn).record = past ++ .began id demand :: future →
      turn.events.foldl (Event.leaves key) (contents? key run.record) =
        if demand.isMalformed then contents? key past else none) :
    Tidy configuration key (run.follow id heading turn) := by
  have holder {other : ℕ}
      (first : newest? configuration ⟨.checker, key⟩ (run.follow id heading turn).record = some other) :
      other = id := by
    rw [follow_newest?, newest] at first
    exact (Option.some.inj first).symm
  have waiting : (run.follow id heading turn).waiting id = remaining turn.request :=
    Function.update_self ..
  constructor
  case untouched =>
    intro none
    rw [follow_newest?, newest] at none
    cases none
  case held =>
    intro other request first waits
    obtain rfl := holder first
    rw [contents?_follow silent]
    exact held request (waiting ▸ waits)
  case left =>
    intro other past demand future first gone split
    obtain rfl := holder first
    rw [contents?_follow silent]
    exact left past demand future (waiting ▸ gone) split

/-- A request that begins takes the artifact over, and writes it unless its text is not JSON. -/
theorem Tidy.begin (tidy : Tidy configuration key run) (ordered : Ordered configuration run) {id : ℕ}
    {demand : Demand} (fresh : id ∉ names run.record) :
    Tidy configuration key (run.follow id (.began id demand) (demand.start run.workspace)) := by
  have next : Ordered configuration (run.follow id (.began id demand) (demand.start run.workspace)) :=
    ordered.advance (.begin fresh)
  by_cases laned : demand.lane? configuration = some ⟨.checker, key⟩
  case neg =>
    have quiet : newest? configuration ⟨.checker, key⟩ (run.record ++ [.began id demand]) =
        newest? configuration ⟨.checker, key⟩ run.record := by rw [newest?_began, if_neg laned]
    refine tidy.follow_other next (fun _ => rfl) quiet fun newest => fresh ?_
    obtain ⟨other, began, -⟩ := newest?_mem newest
    exact mem_names_iff.mpr ⟨other, began⟩
  case pos =>
    have newest : newest? configuration ⟨.checker, key⟩ (run.record ++ [.began id demand]) = some id := by
      rw [newest?_began, if_pos laned]
    have starts := demand.starts run.workspace
    generalize demand.start run.workspace = turn at starts next
    rw [← ordered.configured] at laned
    cases starts with
    | aside unlaned | ask unlaned =>
      rw [unlaned] at laned
      cases laned
    | @malformed mode document after staged fault draws broken =>
      apply Tidy.follow_newest newest (fun _ => rfl) (fun _ remains => by cases remains)
      intro past demand future _ split
      obtain ⟨rfl, rfl, -⟩ := split_unique next.once split rfl
      simp [Turn.finish, Event.leaves, Demand.isMalformed, Demand.isWellFormed, Demand.document, broken]
    | @write demand after staged purpose draws purposed sound =>
      refine Tidy.follow_newest newest (fun _ => rfl) ?_ fun _ _ _ gone => by cases gone
      rintro request ⟨⟩
      have own : staged.lane = ⟨.checker, key⟩ := Option.some.inj (draws.serves.lane.symm.trans laned)
      have artifact := draws.serves.lane_eq (congrArg Lane.mode own)
      rw [own, Lane.mk.injEq] at artifact
      simp [Turn.await, Request.call?, Event.leaves, Request.holds?, artifact.2]
    | resolve draws read =>
      obtain ⟨-, -, own⟩ := Demand.lane?_eq_some_iff.mp laned
      cases own

/-- The newest request of a lane goes on with the artifact as it answers for it. -/
theorem Tidy.reply (tidy : Tidy configuration key run) (ordered : Ordered configuration run) {id : ℕ}
    {request : Request} {call : Call} {surroundings : Surroundings} {reply : Reply}
    (waits : run.waiting id = some request) (calls : request.call? = some call)
    (fits : reply.fits call = true) (calm : (Entry.returned id call reply.succeeds).isCalm = true) :
    Tidy configuration key (run.follow id (.returned id call reply.succeeds)
      (request.resume surroundings run.workspace reply)) := by
  have next : Ordered configuration (run.follow id (.returned id call reply.succeeds)
      (request.resume surroundings run.workspace reply)) := ordered.advance (.reply waits calls fits)
  have quiet : newest? configuration ⟨.checker, key⟩
      (run.record ++ [.returned id call reply.succeeds]) =
        newest? configuration ⟨.checker, key⟩ run.record := newest?_returned
  by_cases newest : newest? configuration ⟨.checker, key⟩ run.record = some id
  case neg => exact tidy.follow_other next (fun _ => rfl) quiet newest
  case pos =>
    obtain ⟨demand, staged, began, serves, works, own, current⟩ := ordered.staged_of_newest waits newest
    have held := tidy.held id request newest waits
    have continues : Continues surroundings run.workspace request reply _ := request.continues calls fits
    have written : ∀ staged purpose, request = .writing staged purpose → reply ≠ .finished false := by
      rintro staged purpose rfl rfl
      cases calls
      cases calm
    have leaves := continues.leaves serves works own current written
    apply Tidy.follow_newest (quiet.trans newest) (fun _ => rfl)
    · intro next remains
      rw [held]
      rcases leaves with ⟨onward, waits, leaves⟩ | ⟨ends, -⟩
      · obtain rfl := Option.some.inj (waits.symm.trans remains)
        exact leaves
      · rw [ends] at remains
        cases remains
    · intro past other future gone split
      rw [held]
      rcases leaves with ⟨onward, waits, -⟩ | ⟨-, leaves⟩
      · rw [waits] at gone
        cases gone
      -- a request that gets a reply is not one with a text that is not JSON
      have same : demand = other :=
        began_unique next.once (mem_follow began) (split ▸ List.mem_append_right _ (List.mem_cons_self ..))
      rw [← same, serves.sound staged works]
      exact leaves

theorem tidy_after (configuration : Configuration) (key : List Component) (actions : List Action)
    (calm : ∀ entry ∈ (after configuration actions).record, entry.isCalm = true) :
    Tidy configuration key (after configuration actions) := by
  refine (after_induction (motive := fun run => Ordered configuration run ∧
    ((∀ entry ∈ run.record, entry.isCalm = true) → Tidy configuration key run))
    ⟨ordered_empty, fun _ => tidy_empty⟩ ?_ actions).2 calm
  rintro run action next ⟨ordered, tidy⟩ advances
  refine ⟨ordered.advance advances, ?_⟩
  intro calm
  cases advances with
  | begin fresh =>
    have tidy := tidy fun entry member => calm entry (List.mem_append_left _ member)
    exact tidy.begin ordered fresh
  | reply waits calls fits =>
    have tidy := tidy fun entry member => calm entry (List.mem_append_left _ member)
    apply tidy.reply ordered waits calls fits
    exact calm _ (List.mem_append_right _ (List.mem_cons_self ..))
  | @drop id request waits =>
    have dropped := calm (.dropped id) (List.mem_append_right _ (List.mem_cons_self ..))
    cases dropped

/-- Once all requests have ended, without one dropped and without a failed call to the file system, an
artifact is left on the disk exactly if the last request of its lane was a validation of a text that is
not JSON, and the artifact was on the disk when that validation began. -/
theorem artifact_left_iff (configuration : Configuration) (actions : List Action) (key : List Component)
    (calm : ∀ entry ∈ (after configuration actions).record, entry.isCalm = true)
    (done : ∀ id ∈ names (after configuration actions).record, (after configuration actions).waiting id = none) :
    contents? key (after configuration actions).record ≠ none ↔
      ∃ past id document future,
        (after configuration actions).record = past ++ .began id (.validate .checker document) :: future ∧
        newest? configuration ⟨.checker, key⟩ (after configuration actions).record = some id ∧
        (Demand.validate .checker document).isMalformed = true ∧ contents? key past ≠ none := by
  have ordered := ordered_after configuration actions
  have tidy := tidy_after configuration key actions calm
  generalize after configuration actions = run at *
  constructor
  · intro found
    cases newest : newest? configuration ⟨.checker, key⟩ run.record with
    | none => exact (found (tidy.untouched newest)).elim
    | some id =>
      obtain ⟨demand, began, laned⟩ := newest?_mem newest
      obtain ⟨past, future, split⟩ := List.append_of_mem began
      have left := tidy.left id past demand future newest (done id (mem_names_iff.mpr ⟨demand, began⟩)) split
      cases broken : demand.isMalformed with
      | false =>
        rw [broken, if_neg Bool.false_ne_true] at left
        exact (found left).elim
      | true =>
        rw [broken, if_pos rfl] at left
        obtain ⟨-, -, own⟩ := Demand.lane?_eq_some_iff.mp laned
        cases demand with
        | validate mode document =>
          obtain rfl : mode = .checker := (congrArg Lane.mode own).symm
          exact ⟨past, id, document, future, split, rfl, broken, left ▸ found⟩
        | complete | hover => cases broken
  · rintro ⟨past, id, document, future, split, newest, broken, found⟩
    have began : .began id (.validate .checker document) ∈ run.record := by simp [split]
    rw [tidy.left id past _ future newest (done id (mem_names_iff.mpr ⟨_, began⟩)) split,
      if_pos broken]
    exact found

/-- The broken text takes the artifact over from the validation that waits for the checker. Neither removes
it. -/
theorem artifact_left_iff_broken :
    ∃ run, run = after .default (overtakenBy (.validate .checker brokenDocument)) ∧
      (∀ entry ∈ run.record, entry.isCalm = true) ∧ (∀ id ∈ names run.record, run.waiting id = none) ∧
      contents? [.name "temp-validation.ts"] run.record ≠ none := by
  obtain ⟨run, named⟩ : ∃ run, run = after .default (overtakenBy (.validate .checker brokenDocument)) :=
    ⟨_, rfl⟩
  have calm : ∀ entry ∈ run.record, entry.isCalm = true := by
    rw [named]
    decide +kernel
  have done : ∀ id ∈ names run.record, run.waiting id = none := by
    rw [named]
    decide +kernel
  have split : run.record =
      run.record.take 4 ++ .began 1 (.validate .checker brokenDocument) :: run.record.drop 5 := by
    rw [named]
    decide +kernel
  have newest : newest? .default ⟨.checker, [.name "temp-validation.ts"]⟩ run.record = some 1 := by
    rw [named]
    decide +kernel
  have found : contents? [.name "temp-validation.ts"] (run.record.take 4) ≠ none := by
    rw [named]
    decide +kernel
  refine ⟨run, named, calm, done, ?_⟩
  rw [named] at calm done split newest found ⊢
  exact (artifact_left_iff .default (overtakenBy (.validate .checker brokenDocument)) _ calm done).mpr
    ⟨_, 1, brokenDocument, _, split, newest, by decide +kernel, found⟩

end Run
end TypedJson
