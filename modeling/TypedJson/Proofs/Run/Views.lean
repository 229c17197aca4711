import TypedJson.Proofs.Run.Viewing

/-! # Views of artifacts

Nothing keeps two requests from looking before either has opened a view. Both open one then, but only if the
language service says of neither view that it is open: as long as it does say so, an artifact is opened once. A
request that is told so asks at once, while the other one may still be waiting.

`OpensAt` and `AsksAt` are the points of a record at which a view may be opened and suggestions may be asked for.
Nothing is opened after a view of the same path has been closed, so if two views of an artifact are opened, the
second is called for before the first is closed.
-/

namespace TypedJson.Run

variable {configuration : Configuration} {actions : List Action} {id : ℕ} {path : Path}
  {record entries : List Entry} {heading : Entry} {turn : Turn}

/-- When a request is told that its artifact is written, the language service says whether the artifact is open in
a view. By then the record is `earlier`. -/
def Told (configuration : Configuration) (actions : List Action) (id : ℕ) (path : Path) (isOpen : Bool)
    (earlier : List Entry) : Prop :=
  ∃ before surroundings rest, actions = before ++ .reply id surroundings (.finished true) :: rest ∧
    earlier = (after configuration before).record ∧ surroundings.isOpen path = isOpen

theorem Told.append {isOpen : Bool} {earlier : List Entry} (more : List Action)
    (told : Told configuration actions id path isOpen earlier) :
    Told configuration (actions ++ more) id path isOpen earlier := by
  obtain ⟨before, surroundings, rest, rfl, reached, answers⟩ := told
  exact ⟨before, surroundings, rest ++ more, by simp, reached, answers⟩

/-- At this point a request may open a view of its artifact: it has just written the artifact, of which no view
has been closed, and the language service has said that it is not open. -/
inductive OpensAt (configuration : Configuration) (actions : List Action) (id : ℕ) (path : Path) :
    List Entry → Prop
  | shut {earlier : List Entry} {content : String} (unclosed : ¬ Closed path earlier)
      (told : Told configuration actions id path false earlier) :
      OpensAt configuration actions id path
        (earlier ++ [.returned id (.write path content) true, .did id (.askedOpen path)])

/-- At this point a request may ask for suggestions. It asks about its document, which has no tag, or about its
artifact: directly after the write, if a view of the artifact has been closed or the language service says that
one is open, or else after it has failed to open a view or has closed the view that it had opened. -/
inductive AsksAt (configuration : Configuration) (actions : List Action) (id : ℕ) (path : Path) :
    List Entry → Prop
  | untagged {earlier : List Entry} {document : Document} {position : Position}
      (unlaned : (Demand.complete document position).lane? configuration = none) (own : path = document.id) :
      AsksAt configuration actions id path (earlier ++ [.began id (.complete document position)])
  | known {earlier : List Entry} {content : String} (closed : Closed path earlier) :
      AsksAt configuration actions id path (earlier ++ [.returned id (.write path content) true])
  | held {earlier : List Entry} {content : String} (unclosed : ¬ Closed path earlier)
      (told : Told configuration actions id path true earlier) :
      AsksAt configuration actions id path
        (earlier ++ [.returned id (.write path content) true, .did id (.askedOpen path)])
  | unopenable {earlier : List Entry} :
      AsksAt configuration actions id path (earlier ++ [.returned id (.openView path) false])
  | closed {earlier : List Entry} {success : Bool} (opened : .returned id (.openView path) true ∈ earlier) :
      AsksAt configuration actions id path (earlier ++ [.returned id (.closeView path) success])

/-- Views are opened and suggestions asked for where this may happen. -/
def Placed (configuration : Configuration) (actions : List Action) (past : List Entry) : Entry → Prop
  | .did id (.called (.openView path)) => OpensAt configuration actions id path past
  | .did id (.called (.completions path _)) => AsksAt configuration actions id path past
  | _ => True

section Placed

variable {past : List Entry} {entry : Entry}

theorem Placed.append (more : List Action) (placed : Placed configuration actions past entry) :
    Placed configuration (actions ++ more) past entry := by
  unfold Placed at placed ⊢
  split at placed
  · obtain ⟨unclosed, told⟩ := placed
    exact .shut unclosed (told.append more)
  · cases placed with
    | untagged unlaned own => exact .untagged unlaned own
    | known closed => exact .known closed
    | held unclosed told => exact .held unclosed (told.append more)
    | unopenable => exact .unopenable
    | closed opened => exact .closed opened
  · trivial

theorem placed_of_quiet {event : Event} (quiet : event.approaches = false) :
    Placed configuration actions past (.did id event) := by
  cases event with
  | called call => cases call <;> trivial
  | _ => trivial

/-- Nothing is to be shown of a stretch that opens no view and asks for no suggestions. -/
theorem throughout_placed_quiet (announces : ∀ past, Placed configuration actions past heading)
    (quiet : ∀ event ∈ turn.events, event.approaches = false) :
    Throughout (fun past => Placed configuration actions (record ++ past)) (heading :: trail id turn) := by
  refine throughout_cons.mpr ⟨announces _, throughout_trail configuration ?_ fun _ _ => trivial⟩
  exact fun _ _ event member => placed_of_quiet (quiet event member)

/-- In a stretch that leads to a call only this call is to be looked at. -/
theorem throughout_placed_await {workspace : Workspace} {events : List Event} {request : Request} {call : Call}
    (announces : ∀ past, Placed configuration actions past heading)
    (quiet : ∀ event ∈ events, event.approaches = false) (calls : request.call? = some call)
    (placed : Placed configuration actions (record ++ heading :: events.map (.did id)) (.did id (.called call))) :
    Throughout (fun past => Placed configuration actions (record ++ past))
      (heading :: trail id (.await workspace events request)) := by
  have told : trail id (.await workspace events request) = events.map (.did id) ++ [.did id (.called call)] := by
    rw [trail_of_waiting rfl calls]
    simp [Turn.await, calls]
  rw [told, ← List.cons_append, throughout_append]
  refine ⟨throughout_cons.mpr ⟨announces _, ?_⟩, throughout_cons.mpr ⟨by simpa using placed, throughout_nil⟩⟩
  intro past entry future split
  have member : entry ∈ events.map (Entry.did id) := by simp [split]
  obtain ⟨event, present, rfl⟩ := List.mem_map.mp member
  exact placed_of_quiet (quiet event present)

end Placed

/-- A request that waits for a view to be closed has opened it. -/
theorem opened_of_closing {staged : Staged} {position : Position} {wait : IndexWait}
    (waits : (after configuration actions).waiting id = some (.indexing staged position wait .closing)) :
    .returned id (.openView staged.artifact.path) true ∈ (after configuration actions).record := by
  obtain ⟨demand, began, serves⟩ := (ordered_after configuration actions).begun id _ waits
  obtain ⟨left, lives, viewing⟩ := viewing_after configuration actions began
  obtain rfl := lives.waits _ waits
  rw [← (serves.staged staged rfl).path_eq] at viewing
  have viewed : .returned id (.openView staged.artifact.path) true ∈
      views id (after configuration actions).record := by
    simp [viewing.of_later nofun]
  exact (mem_views_iff.mp viewed).1

/-- The first stretch of a request asks at most about a document without a tag. -/
theorem placed_begin (configuration : Configuration) (actions : List Action) (id : ℕ) (demand : Demand) :
    Throughout (fun past => Placed configuration (actions ++ [.begin id demand])
        ((after configuration actions).record ++ past))
      (.began id demand :: trail id (demand.start (after configuration actions).workspace)) := by
  have configured := (ordered_after configuration actions).configured
  have starts := demand.starts (after configuration actions).workspace
  generalize demand.start (after configuration actions).workspace = turn at starts
  cases starts with
  | ask unlaned json free =>
    rw [configured] at unlaned
    exact throughout_placed_await (fun _ => trivial) (by simp) rfl (.untagged unlaned rfl)
  | aside | malformed | write | resolve =>
    refine throughout_placed_quiet (fun _ => trivial) ?_
    simp [Turn.await, Turn.finish, Request.call?, Event.approaches]

/-- What follows a reply opens a view or asks for suggestions where this may happen. -/
theorem placed_reply {request : Request} {call : Call} {surroundings : Surroundings} {reply : Reply}
    (waits : (after configuration actions).waiting id = some request) (calls : request.call? = some call)
    (fits : reply.fits call = true) :
    Throughout (fun past => Placed configuration (actions ++ [.reply id surroundings reply])
        ((after configuration actions).record ++ past))
      (.returned id call reply.succeeds ::
        trail id (request.resume surroundings (after configuration actions).workspace reply)) := by
  have announces (past : List Entry) : Placed configuration (actions ++ [.reply id surroundings reply]) past
      (.returned id call reply.succeeds) := trivial
  have approaches : Approaches surroundings (after configuration actions).workspace request reply _ :=
    Request.approaches calls fits
  have closed_iff (path : Path) : (after configuration actions).workspace.indexed.contains path.components = true ↔
      Closed path (after configuration actions).record :=
    List.contains_iff_mem.trans (mem_indexed_iff configuration actions)
  generalize request.resume surroundings (after configuration actions).workspace reply = turn at approaches
  cases approaches with
  | known closed =>
    cases calls
    exact throughout_placed_await announces (by simp) rfl (.known ((closed_iff _).mp closed))
  | held unclosed answers =>
    cases calls
    rw [← Bool.not_eq_true, closed_iff] at unclosed
    apply throughout_placed_await announces (by simp [Event.approaches]) rfl
    exact .held unclosed ⟨actions, surroundings, [], rfl, rfl, answers⟩
  | opens unclosed answers =>
    cases calls
    rw [← Bool.not_eq_true, closed_iff] at unclosed
    apply throughout_placed_await announces (by simp [Event.approaches]) rfl
    exact .shut unclosed ⟨actions, surroundings, [], rfl, rfl, answers⟩
  | unopenable =>
    cases calls
    exact throughout_placed_await announces (by simp) rfl .unopenable
  | waits goes later quiet => exact throughout_placed_quiet announces quiet
  | closed =>
    cases calls
    exact throughout_placed_await announces (by simp) rfl (.closed (opened_of_closing waits))
  | aside unviewed quiet settled => exact throughout_placed_quiet announces quiet

/-- In every run, views are opened and suggestions asked for where this may happen. -/
theorem placed_after (configuration : Configuration) (actions : List Action) :
    Throughout (Placed configuration actions) (after configuration actions).record := by
  induction actions using List.reverseRecOn with
  | nil => exact throughout_nil
  | append_singleton actions action ih =>
    have earlier : Throughout (Placed configuration (actions ++ [action])) (after configuration actions).record :=
      fun past entry future split => (ih past entry future split).append [action]
    rw [after_concat]
    rcases step_eq_or_advances (after configuration actions) action with same | advances
    · rwa [same]
    · generalize (after configuration actions).step action = next at advances
      cases advances with
      | begin fresh => exact throughout_append.mpr ⟨earlier, placed_begin configuration actions _ _⟩
      | reply waits calls fits => exact throughout_append.mpr ⟨earlier, placed_reply waits calls fits⟩
      | drop waits => exact throughout_append.mpr ⟨earlier, throughout_cons.mpr ⟨trivial, throughout_nil⟩⟩

/-- An entry tells that a view of a path has been opened. -/
def Entry.isOpening (path : Path) : Entry → Bool
  | .returned _ (.openView opened) success => success && opened.same path
  | _ => false

/-- The entries that tell that a view of a path has been opened, by whichever request. -/
def openings (path : Path) (record : List Entry) : List Entry := record.filter (·.isOpening path)

/-- At most one view of each path is opened. -/
def OpensOnce (record : List Entry) : Prop := ∀ path, (openings path record).length ≤ 1

theorem Entry.isOpening_iff {entry : Entry} : entry.isOpening path = true ↔
    ∃ id opened, entry = .returned id (.openView opened) true ∧ opened.same path = true := by
  unfold isOpening
  split
  case h_1 id opened success =>
    rw [Bool.and_eq_true]
    constructor
    · rintro ⟨rfl, same⟩
      exact ⟨id, opened, rfl, same⟩
    · rintro ⟨_, _, whole, same⟩
      cases whole
      exact ⟨rfl, same⟩
  case h_2 other =>
    refine ⟨nofun, ?_⟩
    rintro ⟨id, opened, rfl, -⟩
    exact (other id opened true rfl).elim

/-- The openings of one request are among its views. -/
theorem openings_views (own : ∀ entry ∈ openings path record, entry.actor = id) :
    openings path (views id record) = openings path record := by
  rw [views, about, openings, List.filter_filter, List.filter_filter, openings]
  apply List.filter_congr
  intro entry member
  cases opens : entry.isOpening path with
  | false => simp
  | true =>
    have actor : entry.actor = id := own entry (List.mem_filter.mpr ⟨member, opens⟩)
    obtain ⟨other, opened, rfl, -⟩ := Entry.isOpening_iff.mp opens
    simp [actor, Entry.isView]

/-- One request opens at most one view. -/
theorem ViewsOnce.length_openings_le (once : ViewsOnce id path entries) (other : Path) :
    (openings other entries).length ≤ 1 := by
  rcases once with rfl | ⟨success, begins⟩
  · simp [openings, Entry.isOpening]
  · calc (openings other entries).length
        ≤ (openings other [.did id (.called (.openView path)), .returned id (.openView path) true,
            .returned id (.closeView path) success]).length := (begins.sublist.filter _).length_le
      _ ≤ 1 := by cases same : path.same other <;> simp [openings, Entry.isOpening, same]

theorem ViewsOnce.of_opened (once : ViewsOnce id path entries) {opened : Path}
    (returned : .returned id (.openView opened) true ∈ entries) :
    .did id (.called (.openView opened)) ∈ entries ∧ .returned id (.openView opened) false ∉ entries := by
  rcases once with rfl | ⟨success, begins⟩
  · simp at returned
  · refine ⟨?_, fun failed => by simpa using begins.subset failed⟩
    obtain rfl : opened = path := by simpa using begins.subset returned
    cases entries with
    | nil => cases returned
    | cons first rest =>
      obtain ⟨rfl, -⟩ := List.cons_prefix_cons.mp begins
      exact List.mem_cons_self ..

/-- A view that has been opened is one for which a request made its call and of which it heard nothing else. -/
theorem exists_view_of_opened (returned : .returned id (.openView path) true ∈ (after configuration actions).record) :
    .did id (.called (.openView path)) ∈ (after configuration actions).record ∧
      .returned id (.openView path) false ∉ (after configuration actions).record ∧
      ∀ other, (openings other (views id (after configuration actions).record)).length ≤ 1 := by
  obtain ⟨demand, began⟩ := mem_names_iff.mp (actor_mem_names configuration actions _ returned)
  obtain ⟨left, -, viewing⟩ := viewing_after configuration actions began
  have once := viewing.once
  obtain ⟨called, succeeded⟩ := once.of_opened (mem_views_iff.mpr ⟨returned, rfl, rfl⟩)
  refine ⟨(mem_views_iff.mp called).1, fun failed => succeeded ?_, once.length_openings_le⟩
  exact mem_views_iff.mpr ⟨failed, rfl, rfl⟩

/-- As far as the record tells, a request is about to open a view of a path, or has one that is not closed yet. -/
def Held (path : Path) (record : List Entry) : Prop :=
  ∃ id opened, opened.same path = true ∧ .did id (.called (.openView opened)) ∈ record ∧
    .returned id (.openView opened) false ∉ record ∧ ∀ success, .returned id (.closeView opened) success ∉ record

/-- The language service says of a path that it is open in a view whenever a request holds a view of it. -/
def TellsOpen (configuration : Configuration) (actions : List Action) : Prop :=
  ∀ before id surroundings reply rest, actions = before ++ .reply id surroundings reply :: rest →
    ∀ path, Held path (after configuration before).record → surroundings.isOpen path = true

/-- If the service says what is open, nobody calls for a view of a path after a call for one that succeeds. -/
theorem not_opened_behind (tells : TellsOpen configuration actions) {other : ℕ} {opened : Path}
    {past future : List Entry} (same : opened.same path = true)
    (returned : .returned id (.openView opened) true ∈ (after configuration actions).record)
    (earlier : .did id (.called (.openView opened)) ∈ past) :
    (after configuration actions).record ≠ past ++ .did other (.called (.openView path)) :: future := by
  intro split
  obtain ⟨-, succeeded, -⟩ := exists_view_of_opened returned
  have opens : OpensAt configuration actions other path past := placed_after configuration actions _ _ _ split
  obtain ⟨unclosed, told⟩ := opens
  obtain ⟨before, surroundings, rest, whole, reached, shut⟩ := told
  have grown : (after configuration before).record <+: (after configuration actions).record :=
    whole ▸ record_prefix configuration before _
  have held : Held path (after configuration before).record := by
    refine ⟨id, opened, same, ?_, fun failed => succeeded (grown.subset failed), fun success closed => unclosed ?_⟩
    · simpa [reached] using earlier
    · exact reached ▸ ⟨id, opened, success, closed, Path.same_iff.mp same⟩
  rw [tells before other surroundings _ rest whole path held] at shut
  cases shut

/-- Of two entries of a record one comes before the other. -/
theorem exists_split_of_mem {first second : Entry} (apart : first ≠ second) (present : first ∈ record)
    (present' : second ∈ record) :
    ∃ past future, record = past ++ second :: future ∧ first ∈ past ∨
      record = past ++ first :: future ∧ second ∈ past := by
  obtain ⟨past, future, rfl⟩ := List.append_of_mem present
  rcases List.mem_append.mp present' with early | late
  · exact ⟨past, future, .inr ⟨rfl, early⟩⟩
  · obtain ⟨between, rest, rfl⟩ := List.append_of_mem ((List.mem_cons.mp late).resolve_left apart.symm)
    exact ⟨past ++ first :: between, rest, .inl ⟨by simp, by simp⟩⟩

/-- If the service says what is open, two requests do not both open a view of a path. -/
theorem opener_unique (tells : TellsOpen configuration actions) {other : ℕ} {opened opened' : Path}
    (same : opened.same opened' = true)
    (returned : .returned id (.openView opened) true ∈ (after configuration actions).record)
    (returned' : .returned other (.openView opened') true ∈ (after configuration actions).record) : id = other := by
  by_contra apart
  obtain ⟨called, -, -⟩ := exists_view_of_opened returned
  obtain ⟨called', -, -⟩ := exists_view_of_opened returned'
  have same' : opened'.same opened = true := by rw [Path.same_iff, ← Path.same_iff.mp same]
  obtain ⟨past, future, ⟨split, earlier⟩ | ⟨split, earlier⟩⟩ :=
    exists_split_of_mem (fun whole => apart (Entry.did.inj whole).1) called called'
  · exact not_opened_behind tells same returned earlier split
  · exact not_opened_behind tells same' returned' earlier split

/-- If the service says what is open, at most one view of each path is opened. -/
theorem opensOnce_of_tellsOpen (tells : TellsOpen configuration actions) :
    OpensOnce (after configuration actions).record := by
  intro path
  cases all : openings path (after configuration actions).record with
  | nil => exact Nat.zero_le 1
  | cons first rest =>
    have tale {entry : Entry} (member : entry ∈ first :: rest) :
        ∃ id opened, entry = .returned id (.openView opened) true ∧
          entry ∈ (after configuration actions).record ∧ opened.same path = true := by
      rw [← all, openings, List.mem_filter] at member
      obtain ⟨id, opened, whole, same⟩ := Entry.isOpening_iff.mp member.2
      exact ⟨id, opened, whole, member.1, same⟩
    obtain ⟨id, opened, rfl, returned, same⟩ := tale (List.mem_cons_self ..)
    have own : ∀ entry ∈ openings path (after configuration actions).record, entry.actor = id := by
      intro entry member
      rw [all] at member
      obtain ⟨other, opened', rfl, returned', same'⟩ := tale member
      refine opener_unique tells ?_ returned' returned
      rw [Path.same_iff, Path.same_iff.mp same, Path.same_iff.mp same']
    rw [← all, ← openings_views own]
    exact (exists_view_of_opened returned).2.2 path

/-- Nobody asks for suggestions on a path of which another request has opened a view while that request is still
waiting for it to be indexed. -/
def AsksWhenIndexed (record : List Entry) : Prop :=
  ∀ past id path position future, record = past ++ .did id (.called (.completions path position)) :: future →
    ∀ other opened, other ≠ id → opened.same path = true → .returned other (.openView opened) true ∈ past →
      .did other (.called (.closeView opened)) ∈ past

/-- A request opens at most one view, of its artifact, and closes it if it could be opened. It opens one only
directly after it has written the artifact, if no view of the path has been closed by then and the language service
says that none is open. So if the service says of each path that it is open as long as a request has a view of it,
at most one view of each path is opened. A request asks for suggestions on its artifact at once if a view of the
path has been closed or the service says that one is open, and otherwise after it has failed to open a view or has
opened one, waited and closed it. -/
theorem opens_unless_known_or_open (configuration : Configuration) (actions : List Action) :
    let record := (after configuration actions).record
    (∀ id demand, .began id demand ∈ record →
      ViewsOnce id (Artifact.pathFor demand.document.id configuration.artifactFileName) (views id record)) ∧
    (∀ past id path future, record = past ++ .did id (.called (.openView path)) :: future →
      OpensAt configuration actions id path past ∧ ¬ Closed path past) ∧
    (TellsOpen configuration actions → OpensOnce record) ∧
    ∀ past id path position future, record = past ++ .did id (.called (.completions path position)) :: future →
      AsksAt configuration actions id path past := by
  have placed := placed_after configuration actions
  refine ⟨fun id demand began => ?_, fun past id path future split => ?_, opensOnce_of_tellsOpen,
    fun past id path position future split => placed _ _ _ split⟩
  · obtain ⟨left, -, viewing⟩ := viewing_after configuration actions began
    exact viewing.once
  · have opens : OpensAt configuration actions id path past := placed _ _ _ split
    refine ⟨opens, ?_⟩
    obtain ⟨unclosed, told⟩ := opens
    rw [closed_append, not_or]
    exact ⟨unclosed, by simp [Closed]⟩

/-- Surroundings in which a file is open or not and does not get indexed. -/
def unindexed (isOpen : Bool) : Surroundings := ⟨fun _ => isOpen, fun _ _ => false, fun _ _ => false⟩

/-- A request for suggestions opens a view. While it waits, the service says that the artifact is open to another
one, which asks at once. -/
def waitingBesideAnother : List Action :=
  [.begin 0 (.complete sampleDocument .start), .reply 0 (unindexed false) (.finished true),
    .reply 0 (unindexed true) (.finished true), .begin 1 (.complete sampleDocument .start),
    .reply 1 (unindexed true) (.finished true)]

theorem tellsOpen_waitingBesideAnother : TellsOpen .default waitingBesideAnother := by
  rintro before id surroundings reply rest split path ⟨_, opened, -, called, -⟩
  rcases before with _ | ⟨first, _ | ⟨second, before⟩⟩
  · simp [waitingBesideAnother] at split
  · -- the first request has only called for its write
    obtain ⟨rfl, -⟩ := List.cons.inj split
    have none : (after .default [.begin 0 (.complete sampleDocument .start)]).record.filter Entry.isView = [] := by
      decide +kernel
    exact (List.filter_eq_nil_iff.mp none _ called rfl).elim
  · have member : .reply id surroundings reply ∈ waitingBesideAnother.drop 2 := by simp [split]
    simp only [waitingBesideAnother, List.drop_succ_cons, List.drop_zero, List.mem_cons, Action.reply.injEq,
      reduceCtorEq, List.not_mem_nil, or_false, false_or] at member
    rcases member with ⟨-, rfl, -⟩ | ⟨-, rfl, -⟩ <;> rfl

/-- The second request asks while the first one is waiting, and the artifact has been opened once. -/
theorem opens_unless_known_or_open_beside :
    ∃ run path, run = after .default waitingBesideAnother ∧ path = (⟨"temp-validation.ts"⟩ : Path) ∧
      .began 0 (.complete sampleDocument .start) ∈ run.record ∧ ViewsOnce 0 path (views 0 run.record) ∧
      run.record = run.record.take 4 ++ .did 0 (.called (.openView path)) :: run.record.drop 5 ∧
      OpensAt .default waitingBesideAnother 0 path (run.record.take 4) ∧
      TellsOpen .default waitingBesideAnother ∧ OpensOnce run.record ∧
      run.record = run.record.take 12 ++ [.did 1 (.called (.completions path ⟨2, 0⟩))] ∧
      AsksAt .default waitingBesideAnother 1 path (run.record.take 12) := by
  obtain ⟨run, named⟩ : ∃ run, run = after .default waitingBesideAnother := ⟨_, rfl⟩
  obtain ⟨once, opens, unique, asks⟩ := opens_unless_known_or_open .default waitingBesideAnother
  rw [← named] at once opens unique asks
  have began : .began 0 (.complete sampleDocument .start) ∈ run.record := by
    rw [named]
    decide +kernel
  have opened : run.record = run.record.take 4 ++
      .did 0 (.called (.openView ⟨"temp-validation.ts"⟩)) :: run.record.drop 5 := by
    rw [named]
    decide +kernel
  have asked : run.record = run.record.take 12 ++
      [.did 1 (.called (.completions ⟨"temp-validation.ts"⟩ ⟨2, 0⟩))] := by
    rw [named]
    decide +kernel
  have tells := tellsOpen_waitingBesideAnother
  exact ⟨run, _, named, rfl, began, once 0 _ began, opened, (opens _ _ _ _ opened).1, tells, unique tells, asked,
    asks _ _ _ _ _ asked⟩

/-- Two requests for suggestions are both told that the artifact is not open before either opens it. A third one
is told that it is open and asks, while the others wait. -/
def overlappingViews : List Action :=
  [.begin 0 (.complete sampleDocument .start), .reply 0 (unindexed false) (.finished true),
    .begin 1 (.complete sampleDocument .start), .reply 1 (unindexed false) (.finished true),
    .reply 0 (unindexed false) (.finished true), .reply 1 (unindexed false) (.finished true),
    .begin 2 (.complete sampleDocument .start), .reply 2 (unindexed true) (.finished true)]

/-- An entry of a run in which all requests are for suggestions on the sample document and none is dropped. -/
def Entry.suits : Entry → Bool
  | .began _ demand => demand = .complete sampleDocument .start
  | .dropped _ => false
  | _ => true

/-- Requests for suggestions of which none is dropped open two views of one artifact, and one of them asks while
the others are waiting for the artifact to be indexed. -/
theorem views_overlap :
    (∀ entry ∈ (after .default overlappingViews).record, entry.suits = true) ∧
      ¬ OpensOnce (after .default overlappingViews).record ∧
      ¬ AsksWhenIndexed (after .default overlappingViews).record := by
  obtain ⟨record, named⟩ : ∃ record, record = (after .default overlappingViews).record := ⟨_, rfl⟩
  rw [← named]
  have suits : record.all Entry.suits = true := by
    rw [named]
    decide +kernel
  have twice : (openings ⟨"temp-validation.ts"⟩ record).length = 2 := by
    rw [named]
    decide +kernel
  have asked : record = record.take 20 ++ [.did 2 (.called (.completions ⟨"temp-validation.ts"⟩ ⟨2, 0⟩))] := by
    rw [named]
    decide +kernel
  have opened : .returned 0 (.openView ⟨"temp-validation.ts"⟩) true ∈ record.take 20 := by
    rw [named]
    decide +kernel
  have unclosed : .did 0 (.called (.closeView ⟨"temp-validation.ts"⟩)) ∉ record.take 20 := by
    rw [named]
    decide +kernel
  refine ⟨List.all_eq_true.mp suits, fun once => ?_, fun asks => unclosed ?_⟩
  · exact absurd (once ⟨"temp-validation.ts"⟩) (by simp [twice])
  · exact asks _ _ _ _ _ asked 0 _ (by decide) (by decide +kernel) opened

end TypedJson.Run
