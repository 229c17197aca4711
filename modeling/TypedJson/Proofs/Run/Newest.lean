import TypedJson.Proofs.Run.Fair
import TypedJson.Proofs.Run.Record

/-! # Only the newest request of a lane acts

`Ordered` relates the tickets that waiting requests hold to the record: a ticket is current exactly as
long as its holder is the newest request of its lane. Every step of a run keeps this. So each guarded
event is one of the newest request of a lane, and the file calls of different requests on one artifact do
not mix.
-/

namespace TypedJson

/-- A question about what the artifact holds, to the checker or for a hover. -/
def Event.asksAboutArtifact : Event → Bool
  | .called (.check _) | .called (.hovers _ _) => true
  | _ => false

theorem Event.isGuarded_of_asksAboutArtifact {event : Event} (asks : event.asksAboutArtifact = true) :
    event.isGuarded = true := by
  unfold Event.asksAboutArtifact at asks
  split at asks <;> first | rfl | cases asks

namespace Run

variable {configuration : Configuration} {run next : Run}

/-- A guarded event is one of the newest request of a lane, and it concerns what was demanded. -/
def HeldByNewest (configuration : Configuration) (past : List Entry) : Entry → Prop
  | .did id event => event.isGuarded = true →
      ∃ demand lane, .began id demand ∈ past ∧ demand.lane? configuration = some lane ∧
        newest? configuration lane past = some id ∧ event.Concerns demand lane
  | _ => True

/-- The gates agree with the record about which requests are the newest of their lanes. -/
structure Ordered (configuration : Configuration) (run : Run) : Prop where
  configured : run.workspace.configuration = configuration
  once : (names run.record).Nodup
  begun : ∀ id request, run.waiting id = some request →
    ∃ demand, .began id demand ∈ run.record ∧ request.Serves configuration demand
  bounded : ∀ id request staged, run.waiting id = some request → request.staged? = some staged →
    staged.ticket.token ≤ (run.workspace.gate staged.mode).issued
  current : ∀ id request staged, run.waiting id = some request → request.staged? = some staged →
    (run.workspace.isCurrent staged = true ↔ newest? configuration staged.lane run.record = some id)
  guarded : Throughout (HeldByNewest configuration) run.record

theorem ordered_empty : Ordered configuration (empty configuration) where
  configured := rfl
  once := List.nodup_nil
  begun := fun _ _ waits => by cases waits
  bounded := fun _ _ _ waits => by cases waits
  current := fun _ _ _ waits => by cases waits
  guarded := throughout_nil

/-- A request that waits after a stretch is the one that went on or waited before. -/
theorem follow_waiting {id other : ℕ} {heading : Entry} {turn : Turn} {request : Request}
    (waits : (run.follow id heading turn).waiting other = some request) :
    other = id ∧ remaining turn.request = some request ∨ other ≠ id ∧ run.waiting other = some request := by
  by_cases same : other = id
  · subst same
    exact .inl ⟨rfl, by simpa [follow] using waits⟩
  · exact .inr ⟨same, by simpa [follow, Function.update_of_ne same] using waits⟩

theorem follow_newest? {id : ℕ} {heading : Entry} {turn : Turn} {lane : Lane} :
    newest? configuration lane (run.follow id heading turn).record =
      newest? configuration lane (run.record ++ [heading]) := by
  simp only [follow, newest?]
  rw [List.append_cons, entrants_append, entrants_trail, List.append_nil]

/-- The gates and the record stay in agreement where neither a ticket is drawn nor a request enters. -/
theorem Ordered.isCurrent_iff (ordered : Ordered configuration run) {workspace : Workspace}
    {record : List Entry} (gates : workspace.gate = run.workspace.gate)
    (quiet : ∀ lane, newest? configuration lane record = newest? configuration lane run.record)
    {id : ℕ} {request : Request} {staged : Staged} (waits : run.waiting id = some request)
    (works : request.staged? = some staged) :
    workspace.isCurrent staged = true ↔ newest? configuration staged.lane record = some id := by
  rw [quiet, ← ordered.current id request staged waits works, Workspace.isCurrent_eq, gates,
    ← Workspace.isCurrent_eq]

/-- Entries after which the newest requests are the same leave guarded events with them. -/
theorem guarded_follow {id : ℕ} {heading : Entry} {turn : Turn}
    (guarded : Throughout (HeldByNewest configuration) run.record)
    (headed : HeldByNewest configuration run.record heading)
    (held : ∀ event ∈ turn.events, HeldByNewest configuration (run.record ++ [heading]) (.did id event)) :
    Throughout (HeldByNewest configuration) (run.follow id heading turn).record := by
  refine throughout_append.mpr ⟨guarded, throughout_cons.mpr ⟨by simpa using headed, ?_⟩⟩
  refine throughout_trail configuration (fun past quiet event member observed => ?_)
    (fun _ _ => trivial)
  obtain ⟨demand, lane, began, laned, newest, concerns⟩ := held event member observed
  refine ⟨demand, lane, ?_, laned, ?_, concerns⟩
  · rcases List.mem_append.mp began with early | late
    · exact List.mem_append_left _ early
    · obtain rfl := List.mem_singleton.mp late
      simp
  · rw [List.append_cons, newest?_append, newest]
    simp [newest?, quiet lane]

/-- A request that begins takes its lane over from all others. -/
theorem newest?_began {lane : Lane} {record : List Entry} {id : ℕ} {demand : Demand} :
    newest? configuration lane (record ++ [.began id demand]) =
      if demand.lane? configuration = some lane then some id else newest? configuration lane record := by
  rw [newest?_append]
  by_cases laned : demand.lane? configuration = some lane <;> simp [newest?, entrants, entrant?, laned]

theorem newest?_returned {lane : Lane} {record : List Entry} {id : ℕ} {call : Call} {success : Bool} :
    newest? configuration lane (record ++ [.returned id call success]) = newest? configuration lane record := by
  rw [newest?_append]
  rfl

theorem mem_follow {entry heading : Entry} {id : ℕ} {turn : Turn} (member : entry ∈ run.record) :
    entry ∈ (run.follow id heading turn).record := List.mem_append_left _ member

/-- A request that waits is not one that has yet to begin. -/
theorem Ordered.ne_of_fresh (ordered : Ordered configuration run) {id other : ℕ} {request : Request}
    (fresh : id ∉ names run.record) (waits : run.waiting other = some request) : other ≠ id := by
  rintro rfl
  obtain ⟨demand, began, -⟩ := ordered.begun other request waits
  exact fresh (mem_names_iff.mpr ⟨demand, began⟩)

theorem Ordered.once_began (ordered : Ordered configuration run) {id : ℕ} {demand : Demand} {turn : Turn}
    (fresh : id ∉ names run.record) : (names (run.follow id (.began id demand) turn).record).Nodup := by
  rw [follow_names, names_append]
  refine List.nodup_append.mpr ⟨ordered.once, by simp [names, Entry.opens?], ?_⟩
  rintro other member last present rfl
  obtain rfl := List.mem_singleton.mp present
  exact fresh member

/-- The names of waiting requests stay bound to their demands in a stretch of one request. -/
theorem Ordered.begun_follow (ordered : Ordered configuration run) {id other : ℕ} {heading : Entry}
    {turn : Turn} {demand : Demand} {request : Request}
    (began : .began id demand ∈ run.record ++ [heading])
    (remains : ∀ request, remaining turn.request = some request → request.Serves configuration demand)
    (waits : (run.follow id heading turn).waiting other = some request) :
    ∃ demand, .began other demand ∈ (run.follow id heading turn).record ∧
      request.Serves configuration demand := by
  rcases follow_waiting waits with ⟨rfl, own⟩ | ⟨-, old⟩
  · refine ⟨demand, ?_, remains request own⟩
    rw [follow, List.append_cons]
    exact List.mem_append_left _ began
  · obtain ⟨demand, began, serves⟩ := ordered.begun other request old
    exact ⟨demand, mem_follow began, serves⟩

/-- The beginning of a request without a lane concerns no gate and no lane. -/
theorem Ordered.begin_aside (ordered : Ordered configuration run) {id : ℕ} {demand : Demand}
    (fresh : id ∉ names run.record) (unlaned : demand.lane? configuration = none) :
    Ordered configuration (run.follow id (.began id demand) (demand.start run.workspace)) := by
  obtain ⟨configured, gates, unguarded, remains⟩ :=
    (demand.starts run.workspace).aside_of_lane? (by rw [ordered.configured]; exact unlaned)
  have quiet (lane : Lane) :
      newest? configuration lane (run.follow id (.began id demand) (demand.start run.workspace)).record =
        newest? configuration lane run.record := by
    rw [follow_newest?, newest?_began, unlaned, if_neg (by simp)]
  constructor
  case configured => exact configured.trans ordered.configured
  case once => exact ordered.once_began fresh
  case begun =>
    intro other request waits
    exact ordered.begun_follow (by simp) (fun request own => ordered.configured ▸ (remains request own).1) waits
  case bounded =>
    intro other request staged waits works
    rcases follow_waiting waits with ⟨rfl, own⟩ | ⟨-, old⟩
    · simp [(remains request own).2] at works
    · rw [follow, gates]
      exact ordered.bounded other request staged old works
  case current =>
    intro other request staged waits works
    rcases follow_waiting waits with ⟨rfl, own⟩ | ⟨-, old⟩
    · simp [(remains request own).2] at works
    · exact ordered.isCurrent_iff gates quiet old works
  case guarded =>
    refine guarded_follow ordered.guarded trivial ?_
    intro event member guarded
    simp [unguarded event member] at guarded

/-- The beginning of a request with a lane supersedes the other requests of that lane. -/
theorem Ordered.begin_laned (ordered : Ordered configuration run) {id : ℕ} {demand : Demand} {lane : Lane}
    (fresh : id ∉ names run.record) (laned : demand.lane? configuration = some lane) :
    Ordered configuration (run.follow id (.began id demand) (demand.start run.workspace)) := by
  obtain ⟨staged, draws, fair⟩ :=
    (demand.starts run.workspace).fair (by rw [ordered.configured]; exact laned)
  have own : staged.lane = lane := by
    have drawn := draws.serves.lane
    rw [ordered.configured, laned, Option.some.injEq] at drawn
    exact drawn.symm
  constructor
  case configured => simp only [follow, draws.after, Workspace.issue_configuration, ordered.configured]
  case once => exact ordered.once_began fresh
  case begun =>
    intro other request waits
    exact ordered.begun_follow (by simp)
      (fun request remains => ordered.configured ▸ (fair.remains request remains).1) waits
  case bounded =>
    intro other request held waits works
    rw [follow, draws.after, Workspace.gate_issue]
    rcases follow_waiting waits with ⟨rfl, remains⟩ | ⟨-, old⟩
    · obtain rfl := Option.some.inj ((fair.remains request remains).2.symm.trans works)
      rw [draws.token]
      simp [Gate.issue, Staged.lane]
    · -- the gate of the lane has counted on, and the other gate is as it was
      have older := ordered.bounded other request held old works
      split
      · exact Nat.le_succ_of_le older
      · exact older
  case current =>
    intro other request held waits works
    rw [follow_newest?, newest?_began, laned]
    rcases follow_waiting waits with ⟨rfl, remains⟩ | ⟨-, old⟩
    · obtain rfl := Option.some.inj ((fair.remains request remains).2.symm.trans works)
      simp [follow, draws.isCurrent, own]
    · have others := ordered.ne_of_fresh fresh old
      have older := ordered.bounded other request held old works
      simp only [follow, draws.after, Workspace.isCurrent_issue_iff, own]
      by_cases same : held.lane = lane
      · -- the new ticket has a greater number than any ticket that a waiting request holds
        subst same
        simp only [if_true, Option.some.injEq, Staged.lane]
        exact ⟨fun token => by omega, fun same => (others same.symm).elim⟩
      · rw [if_neg same, if_neg fun taken => same (Option.some.inj taken).symm]
        exact ordered.current other request held old works
  case guarded =>
    refine guarded_follow ordered.guarded trivial ?_
    intro event member guarded
    have newest : newest? configuration lane (run.record ++ [.began id demand]) = some id := by
      rw [newest?_began, if_pos laned]
    exact ⟨demand, lane, by simp, laned, newest, own ▸ fair.concerns event member⟩

/-- Going on after a reply concerns no gate and no lane; guarded events happen while the ticket is
current. -/
theorem Ordered.reply (ordered : Ordered configuration run) {id : ℕ} {request : Request} {call : Call}
    {surroundings : Surroundings} {reply : Reply} (waits : run.waiting id = some request)
    (calls : request.call? = some call) (fits : reply.fits call = true) :
    Ordered configuration (run.follow id (.returned id call reply.succeeds)
      (request.resume surroundings run.workspace reply)) := by
  have continues : Continues surroundings run.workspace request reply _ := request.continues calls fits
  obtain ⟨demand, began, serves⟩ := ordered.begun id request waits
  obtain ⟨configured, gates⟩ := continues.gates
  have quiet (lane : Lane) : newest? configuration lane
      (run.follow id (.returned id call reply.succeeds) (request.resume surroundings run.workspace reply)).record =
        newest? configuration lane run.record := by
    rw [follow_newest?, newest?_returned]
  have fair (staged : Staged) (works : request.staged? = some staged) :
      (request.resume surroundings run.workspace reply).Fair configuration demand staged := by
    rw [← ordered.configured] at serves ⊢
    exact continues.fair serves works
  -- what remains of the request works on what it worked on
  have remains : ∀ next, remaining (request.resume surroundings run.workspace reply).request = some next →
      next.Serves configuration demand ∧ next.staged? = request.staged? := by
    intro next own
    cases works : request.staged? with
    | none => rw [(continues.aside works).2] at own; cases own
    | some staged => exact (fair staged works).remains next own
  constructor
  case configured => exact configured.trans ordered.configured
  case once =>
    rw [follow_names, names_append, show names [.returned id call _] = [] from rfl, List.append_nil]
    exact ordered.once
  case begun =>
    intro other next waits
    exact ordered.begun_follow (List.mem_append_left _ began) (fun next own => (remains next own).1) waits
  case bounded =>
    intro other next staged waiting works
    rw [follow, gates]
    rcases follow_waiting waiting with ⟨rfl, own⟩ | ⟨-, old⟩
    · exact ordered.bounded other request staged waits ((remains next own).2.symm.trans works)
    · exact ordered.bounded other next staged old works
  case current =>
    intro other next staged waiting works
    rcases follow_waiting waiting with ⟨rfl, own⟩ | ⟨-, old⟩
    · exact ordered.isCurrent_iff gates quiet waits ((remains next own).2.symm.trans works)
    · exact ordered.isCurrent_iff gates quiet old works
  case guarded =>
    refine guarded_follow ordered.guarded trivial ?_
    intro event member guarded
    cases works : request.staged? with
    | none => simp [(continues.aside works).1 event member] at guarded
    | some staged =>
      have current := (fair staged works).guarded event member guarded
      rw [ordered.isCurrent_iff gates (fun _ => rfl) waits works, ← newest?_returned] at current
      exact ⟨demand, staged.lane, List.mem_append_left _ began, (serves.staged staged works).lane, current,
        (fair staged works).concerns event member⟩

theorem Ordered.drop (ordered : Ordered configuration run) {id : ℕ} {request : Request}
    (waits : run.waiting id = some request) : Ordered configuration (run.abandon id request) := by
  have gates : (run.abandon id request).workspace.gate = run.workspace.gate := by
    cases request <;> rfl
  have quiet (lane : Lane) : newest? configuration lane (run.abandon id request).record =
      newest? configuration lane run.record := by
    rw [abandon, newest?_append]
    rfl
  have others {other : ℕ} {next : Request} (waits : (run.abandon id request).waiting other = some next) :
      run.waiting other = some next := by
    by_cases same : other = id
    · subst same
      simp [abandon] at waits
    · simpa [abandon, Function.update_of_ne same] using waits
  constructor
  case configured => cases request <;> exact ordered.configured
  case once =>
    rw [abandon, names_append, show names [.dropped id] = [] from rfl, List.append_nil]
    exact ordered.once
  case begun =>
    intro other next waiting
    obtain ⟨demand, began, serves⟩ := ordered.begun other next (others waiting)
    exact ⟨demand, List.mem_append_left _ began, serves⟩
  case bounded =>
    intro other next staged waiting works
    rw [gates]
    exact ordered.bounded other next staged (others waiting) works
  case current =>
    intro other next staged waiting works
    exact ordered.isCurrent_iff gates quiet (others waiting) works
  case guarded => exact throughout_append.mpr ⟨ordered.guarded, throughout_cons.mpr ⟨trivial, throughout_nil⟩⟩

theorem Ordered.advance (ordered : Ordered configuration run) {action : Action}
    (advances : Advances run action next) :
    Ordered configuration next := by
  cases advances with
  | @begin id demand fresh =>
    cases laned : demand.lane? configuration with
    | none => exact ordered.begin_aside fresh laned
    | some lane => exact ordered.begin_laned fresh laned
  | reply waits calls fits => exact ordered.reply waits calls fits
  | drop waits => exact ordered.drop waits

theorem ordered_after (configuration : Configuration) (actions : List Action) :
    Ordered configuration (after configuration actions) :=
  after_induction ordered_empty (fun _ _ _ ordered advances => ordered.advance advances) actions

/-- A waiting request is on the way to what was demanded when it began. -/
theorem Ordered.serves (ordered : Ordered configuration run) {id : ℕ} {demand : Demand} {request : Request}
    (began : .began id demand ∈ run.record) (waits : run.waiting id = some request) :
    request.Serves configuration demand := by
  obtain ⟨other, began', serves⟩ := ordered.begun id request waits
  rwa [began_unique ordered.once began began']

/-- The holder of a guarded event, as the record has it. -/
theorem Ordered.holder (ordered : Ordered configuration run) {past future : List Entry} {id : ℕ}
    {event : Event} (split : run.record = past ++ .did id event :: future)
    (guarded : event.isGuarded = true) :
    ∃ demand lane, .began id demand ∈ past ∧ demand.lane? configuration = some lane ∧
      newest? configuration lane past = some id ∧ event.Concerns demand lane :=
  ordered.guarded past _ future split guarded

/-- Between the write of a request and a point at which it is the newest of the lane no other request changes a
file at that path. -/
theorem Ordered.undisturbed_of_newest (ordered : Ordered configuration run) {past between future : List Entry}
    {id other : ℕ} {path : Path} {content : String} {change : Event}
    (split : run.record = past ++ .did id (.called (.write path content)) :: between ++ future)
    (last : newest? configuration ⟨.checker, path.components⟩
      (past ++ .did id (.called (.write path content)) :: between) = some id)
    (apart : other ≠ id) (changes : change.changes?.map Path.components = some path.components) :
    .did other change ∉ between := by
  intro member
  obtain ⟨changed, changes, same⟩ := Option.map_eq_some_iff.mp changes
  have written : run.record = past ++ .did id (.called (.write path content)) :: (between ++ future) := by
    simp [split]
  obtain ⟨demand, lane, -, -, first, concerns⟩ := ordered.holder written rfl
  obtain rfl := concerns.files path rfl
  obtain ⟨front, back, rfl⟩ := List.append_of_mem member
  have parted : run.record = past ++ .did id (.called (.write path content)) :: front ++
      .did other change :: (back ++ future) := by simp [split]
  obtain ⟨_, lane', -, -, middle, concerns'⟩ :=
    ordered.holder parted (Event.isGuarded_of_changes? changes)
  obtain rfl := concerns'.files changed changes
  rw [same] at middle
  have once : (names (past ++ .did id (.called (.write path content)) :: front ++
      .did other change :: back)).Nodup := by
    have whole := ordered.once
    rw [split, names_append] at whole
    simpa using (List.nodup_append.mp whole).1
  have throughout := newest?_between once first (by simpa using last)
  exact apart (Option.some.inj (middle.symm.trans throughout))

/-- Between the write of a request and its own question about the artifact no other request changes a
file at that path. -/
theorem Ordered.undisturbed (ordered : Ordered configuration run) {past between future : List Entry}
    {id other : ℕ} {path : Path} {content : String} {question change : Event}
    (split : run.record = past ++ .did id (.called (.write path content)) :: between ++
      .did id question :: future)
    (asks : question.isGuarded = true) (apart : other ≠ id)
    (changes : change.changes?.map Path.components = some path.components) :
    .did other change ∉ between := by
  have written : run.record =
      past ++ .did id (.called (.write path content)) :: (between ++ .did id question :: future) := by
    simp [split]
  obtain ⟨demand, lane, began, laned, -, concerns⟩ := ordered.holder written rfl
  obtain rfl := concerns.files path rfl
  obtain ⟨demand', lane', began', laned', last, -⟩ := ordered.holder split asks
  -- a request has one demand, so the write and the question are in one lane
  have early : past ++ .did id (.called (.write path content)) :: between ⊆ run.record := by
    rw [split]
    exact List.subset_append_left _ _
  obtain rfl := began_unique ordered.once (early (List.mem_append_left _ began)) (early began')
  obtain rfl := Option.some.inj (laned.symm.trans laned')
  exact ordered.undisturbed_of_newest split last apart changes

/-- What a request does that is guarded, after another one has entered a lane, it does in another lane. -/
theorem Ordered.elsewhere (ordered : Ordered configuration run) {past future : List Entry}
    {older newer : ℕ} {demand : Demand} {lane : Lane} {event : Event}
    (split : run.record = past ++ .began newer demand :: future)
    (laned : demand.lane? configuration = some lane) (earlier : older ∈ names past)
    (guarded : event.isGuarded = true) (member : .did older event ∈ future) :
    ∃ demand lane', .began older demand ∈ run.record ∧ demand.lane? configuration = some lane' ∧
      lane' ≠ lane ∧ event.Concerns demand lane' := by
  obtain ⟨front, back, rfl⟩ := List.append_of_mem member
  have parted : run.record = past ++ .began newer demand :: front ++ .did older event :: back := by
    simp [split]
  obtain ⟨other, lane', began, laned', newest, concerns⟩ := ordered.holder parted guarded
  have once : (names (past ++ .began newer demand :: front)).Nodup := by
    have whole := ordered.once
    rw [parted, names_append] at whole
    exact (List.nodup_append.mp whole).1
  refine ⟨other, lane', ?_, laned', ?_, concerns⟩
  · rw [parted]
    exact List.mem_append_left _ began
  · rintro rfl
    exact newest?_ne_of_began once laned earlier newest

/-- In every run, tickets tell who is the newest of a lane, and whatever is guarded is done by the newest
request of its lane. So between the write of a request and its own check or hover no other request
changes the artifact, and no request removes an artifact for which a newer one has begun. -/
theorem guarded_events_of_newest (configuration : Configuration) (actions : List Action) :
    let run := after configuration actions
    (∀ id request staged, run.waiting id = some request → request.staged? = some staged →
      (run.workspace.isCurrent staged = true ↔ newest? configuration staged.lane run.record = some id)) ∧
    (∀ past id event future, run.record = past ++ .did id event :: future → event.isGuarded = true →
      ∃ demand lane, .began id demand ∈ past ∧ demand.lane? configuration = some lane ∧
        newest? configuration lane past = some id ∧
        ∀ path, event.changes? = some path → lane = ⟨.checker, path.components⟩) ∧
    (∀ past id path content between question future,
      run.record = past ++ .did id (.called (.write path content)) :: between ++ .did id question :: future →
      question.asksAboutArtifact = true → ∀ other change, other ≠ id →
      change.changes?.map Path.components = some path.components → .did other change ∉ between) ∧
    ∀ past newer demand future, run.record = past ++ .began newer demand :: future →
      ∀ older path, older ∈ names past →
      demand.lane? configuration = some ⟨.checker, path.components⟩ →
      .did older (.called (.remove path)) ∉ future := by
  have ordered := ordered_after configuration actions
  refine ⟨ordered.current, ?_, ?_, ?_⟩
  · intro past id event future split guarded
    obtain ⟨demand, lane, began, laned, newest, concerns⟩ := ordered.holder split guarded
    exact ⟨demand, lane, began, laned, newest, concerns.files⟩
  · intro past id path content between question future split asks other change apart changes
    exact ordered.undisturbed split (Event.isGuarded_of_asksAboutArtifact asks) apart changes
  · intro past newer demand future split older path earlier laned member
    obtain ⟨other, lane, -, -, apart, concerns⟩ := ordered.elsewhere split laned earlier rfl member
    exact apart (concerns.files path rfl)

/-- A document with a tag, beside which artifacts lie in the working directory. -/
def sampleDocument : Document where
  id := ⟨"a.json"⟩
  language := "json"
  text := "\x7b\"$type\":\x7b\"$from\":\"m\",\"$import\":\"T\"\x7d\x7d"

/-- The sample document with a text that has the tag but is not JSON. -/
def brokenDocument : Document := { sampleDocument with text := sampleDocument.text ++ "," }

/-- Surroundings in which nothing is open, everything is indexed, and no two paths name one file. -/
def sampleSurroundings : Surroundings := ⟨fun _ => false, fun _ _ => true, fun _ _ => false⟩

/-- Another request begins while a validation of the sample document waits for the checker, which then
finds nothing. -/
def overtakenBy (demand : Demand) : List Action :=
  [.begin 0 (.validate .checker sampleDocument), .reply 0 sampleSurroundings (.finished true),
    .begin 1 demand, .reply 0 sampleSurroundings (.report (.ok []))]

/-- The write of the artifact of the sample document. -/
def sampleWrite : Call :=
  .write ⟨"temp-validation.ts"⟩ (Artifact.headerText ⟨"m", "T"⟩ ++ sampleDocument.text)

/-- The validation has written and asked for a check before it is overtaken, and it removes nothing. -/
theorem guarded_events_of_newest_overtaken :
    ∃ run, run = after .default (overtakenBy (.hover sampleDocument .start)) ∧
      (∃ request staged, run.waiting 1 = some request ∧ request.staged? = some staged ∧
        (run.workspace.isCurrent staged = true ↔ newest? .default staged.lane run.record = some 1)) ∧
      (run.record = run.record.take 1 ++ .did 0 (.called sampleWrite) :: run.record.drop 2 ∧
        ∃ demand lane, .began 0 demand ∈ run.record.take 1 ∧ demand.lane? .default = some lane ∧
          newest? .default lane (run.record.take 1) = some 0 ∧
          ∀ path, (Event.called sampleWrite).changes? = some path → lane = ⟨.checker, path.components⟩) ∧
      (run.record = run.record.take 1 ++ .did 0 (.called sampleWrite) :: (run.record.drop 2).take 1 ++
          .did 0 (.called (.check [⟨"temp-validation.ts"⟩])) :: run.record.drop 4 ∧
        .did 1 (.called (.remove ⟨"temp-validation.ts/"⟩)) ∉ (run.record.drop 2).take 1) ∧
      run.record = run.record.take 4 ++ .began 1 (.hover sampleDocument .start) :: run.record.drop 5 ∧
      .did 0 (.called (.remove ⟨"temp-validation.ts"⟩)) ∉ run.record.drop 5 := by
  obtain ⟨run, named⟩ : ∃ run, run = after .default (overtakenBy (.hover sampleDocument .start)) := ⟨_, rfl⟩
  obtain ⟨tickets, events, between, removals⟩ :=
    guarded_events_of_newest .default (overtakenBy (.hover sampleDocument .start))
  rw [← named] at tickets events between removals
  have holds : ((run.waiting 1).bind Request.staged?).isSome = true := by
    rw [named]
    decide +kernel
  obtain ⟨staged, bound⟩ := Option.isSome_iff_exists.mp holds
  obtain ⟨request, waits, works⟩ := Option.bind_eq_some_iff.mp bound
  have write : run.record = run.record.take 1 ++ .did 0 (.called sampleWrite) :: run.record.drop 2 := by
    rw [named]
    decide +kernel
  have check : run.record = run.record.take 1 ++ .did 0 (.called sampleWrite) :: (run.record.drop 2).take 1 ++
      .did 0 (.called (.check [⟨"temp-validation.ts"⟩])) :: run.record.drop 4 := by
    rw [named]
    decide +kernel
  have hover : run.record =
      run.record.take 4 ++ .began 1 (.hover sampleDocument .start) :: run.record.drop 5 := by
    rw [named]
    decide +kernel
  have earlier : 0 ∈ names (run.record.take 4) := by
    rw [named]
    decide +kernel
  exact ⟨run, named, ⟨request, staged, waits, works, tickets 1 request staged waits works⟩,
    ⟨write, events _ 0 _ _ write rfl⟩,
    ⟨check, between _ 0 _ _ _ _ _ check rfl 1 _ (by decide) (by decide +kernel)⟩, hover,
    removals _ 1 _ _ hover 0 _ earlier (by decide +kernel)⟩

end Run
end TypedJson
