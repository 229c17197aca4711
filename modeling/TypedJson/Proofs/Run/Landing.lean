import TypedJson.Proofs.Run.LatestText
import TypedJson.Proofs.Run.Leftover
import TypedJson.Proofs.Run.Lived

/-! # File calls that take effect late

A call to write or remove a file takes effect at some moment between the call and its reply. If the request
is dropped meanwhile, the call still takes effect at some moment or never. A timeline sets these moments
between the entries of a record, and `Disk` tells from it which changes have landed so far.

Requests look at their tickets before they call, and nothing stops a call that has been made. So a change
that was under way when a validation began can land on top of the artifact of the validation. No other
change can: those that are called later are called by the validation itself, for it is the newest of its
lane.
-/

namespace TypedJson

section Ways

variable {workspace : Workspace} {surroundings : Surroundings} {demand : Demand} {request : Request}
  {reply : Reply} {turn : Turn} {staged : Staged} {purpose : Purpose}

/-- No request asks the checker before it has written. -/
theorem Starts.not_checking (starts : Starts workspace demand turn) : turn.request ≠ .checking staged := by
  cases starts <;> simp [Turn.finish, Turn.await]

theorem Starts.of_writing (starts : Starts workspace demand turn) (writes : turn.request = .writing staged purpose) :
    turn.events = [.called (.write staged.artifact.path staged.artifact.content)] := by
  cases starts with
  | write =>
    cases writes
    rfl
  | _ => cases writes

/-- A request asks the checker directly after it has written. -/
theorem Continues.of_checking (continues : Continues surroundings workspace request reply turn)
    (checks : turn.request = .checking staged) : request = .writing staged .validation ∧
      reply = .finished true ∧ turn.events = [.called (.check [staged.artifact.path])] := by
  cases continues with
  | check =>
    cases checks
    exact ⟨rfl, rfl, rfl⟩
  | index =>
    simp only [Workspace.afterIndexing] at checks
    split at checks <;> cases checks
  | suggested | looked =>
    simp only [Workspace.cleanUp] at checks
    split at checks <;> cases checks
  | _ => cases checks

end Ways

namespace Run

/-- A moment of a timeline: an entry is recorded, or the file call of a request takes effect. -/
inductive Moment where
  | records (entry : Entry)
  | lands (id : ℕ)

/-- The entry that is recorded at a moment. -/
def Moment.entry? : Moment → Option Entry
  | records entry => some entry
  | lands _ => none

/-- The entries that are recorded along a timeline. -/
def recorded (timeline : List Moment) : List Entry := timeline.filterMap Moment.entry?

theorem recorded_records (entry : Entry) (timeline : List Moment) :
    recorded (.records entry :: timeline) = entry :: recorded timeline := rfl

theorem recorded_append (timeline more : List Moment) :
    recorded (timeline ++ more) = recorded timeline ++ recorded more := List.filterMap_append ..

/-- A call of a request to write or remove a file. -/
structure Change where
  id : ℕ
  call : Call
  deriving DecidableEq

/-- A change concerns the file with a key. -/
def Change.Alters (key : List Component) (change : Change) : Prop :=
  (Event.called change.call).changes?.map Path.components = some key

/-- A change was called by its request. -/
def Change.made (change : Change) : Entry := .did change.id (.called change.call)

/-- The changes that have been called and may still land, and those that have landed, in their order. -/
structure Disk where
  underway : List Change
  landed : List Change

namespace Disk

/-- The disk before anything has happened. -/
def empty : Disk := ⟨[], []⟩

/-- The change lands that a request has called. A request makes one call at a time. -/
def land (disk : Disk) (id : ℕ) : Disk where
  underway := disk.underway.filter (·.id ≠ id)
  landed := disk.landed ++ disk.underway.filter (·.id = id)

/-- A change that has not landed when its call fails does not land after that. -/
def forget (disk : Disk) (id : ℕ) : Disk := { disk with underway := disk.underway.filter (·.id ≠ id) }

/-- A call gets under way, and its reply means that it has landed or has failed. -/
def observe (disk : Disk) : Entry → Disk
  | .did id (.called call) =>
    if (Event.called call).changes?.isSome then { disk with underway := disk.underway ++ [⟨id, call⟩] } else disk
  | .returned id _ success => if success then disk.land id else disk.forget id
  | _ => disk

/-- The disk after a moment. -/
def pass (disk : Disk) : Moment → Disk
  | .records entry => disk.observe entry
  | .lands id => disk.land id

/-- The disk at the end of a timeline. -/
def after (timeline : List Moment) : Disk := timeline.foldl pass empty

/-- What a file holds if it held something at first. -/
def holds? (key : List Component) (first : Option String) (disk : Disk) : Option String :=
  disk.landed.foldl (fun found change => (Event.called change.call).leaves key found) first

/-- How one disk comes from another: which changes have landed meanwhile, each of which was under way or has
been called meanwhile, and that a change stays under way until it lands or fails. -/
structure Leads (disk : Disk) (entries : List Entry) (next : Disk) (news : List Change) : Prop where
  landed : next.landed = disk.landed ++ news
  known : ∀ change ∈ news ++ next.underway, change ∈ disk.underway ∨ change.made ∈ entries
  kept : ∀ change ∈ disk.underway,
    change ∈ news ++ next.underway ∨ ∃ call, .returned change.id call false ∈ entries

variable {disk next last : Disk} {entries more : List Entry} {news late : List Change}

theorem Leads.refl (disk : Disk) (entries : List Entry) : disk.Leads entries disk [] where
  landed := (List.append_nil _).symm
  known := fun _ => .inl
  kept := fun _ => .inl

theorem Leads.trans (first : disk.Leads entries next news) (second : next.Leads more last late) :
    disk.Leads (entries ++ more) last (news ++ late) where
  landed := by rw [second.landed, first.landed, List.append_assoc]
  known := by
    intro change member
    rw [List.append_assoc] at member
    have early (member : change ∈ news ++ next.underway) :
        change ∈ disk.underway ∨ change.made ∈ entries ++ more :=
      (first.known change member).imp_right (List.mem_append_left _)
    rcases List.mem_append.mp member with landed | later
    · exact early (List.mem_append_left _ landed)
    · rcases second.known change later with underway | made
      · exact early (List.mem_append_right _ underway)
      · exact .inr (List.mem_append_right _ made)
  kept := by
    intro change underway
    rcases first.kept change underway with here | ⟨call, failed⟩
    · rcases List.mem_append.mp here with landed | underway
      · exact .inl (List.mem_append_left _ (List.mem_append_left _ landed))
      · rcases second.kept change underway with there | ⟨call, failed⟩
        · rw [List.append_assoc]
          exact .inl (List.mem_append_right _ there)
        · exact .inr ⟨call, List.mem_append_right _ failed⟩
    · exact .inr ⟨call, List.mem_append_left _ failed⟩

theorem leads_land (disk : Disk) (id : ℕ) (entries : List Entry) :
    disk.Leads entries (disk.land id) (disk.underway.filter (·.id = id)) where
  landed := rfl
  known := by
    intro change member
    rcases List.mem_append.mp member with landed | underway
    · exact .inl (List.mem_of_mem_filter landed)
    · exact .inl (List.mem_of_mem_filter underway)
  kept := by
    intro change underway
    simp only [land, List.mem_append, List.mem_filter, underway, true_and, decide_eq_true_eq]
    exact .inl (em _)

theorem leads_observe (disk : Disk) (entry : Entry) : ∃ news, disk.Leads [entry] (disk.observe entry) news := by
  cases entry with
  | did id event =>
    cases event with
    | called call =>
      rw [observe]
      split
      case isFalse => exact ⟨_, .refl _ _⟩
      case isTrue =>
        refine ⟨[], (List.append_nil _).symm, ?_, ?_⟩
        · intro change member
          rw [List.nil_append] at member
          rcases List.mem_append.mp member with underway | own
          · exact .inl underway
          · obtain rfl := List.mem_singleton.mp own
            exact .inr (List.mem_singleton_self _)
        · intro change underway
          exact .inl (List.mem_append_right _ (List.mem_append_left _ underway))
    | _ => exact ⟨_, .refl _ _⟩
  | returned id call success =>
    cases success with
    | true => exact ⟨_, leads_land ..⟩
    | false =>
      refine ⟨[], (List.append_nil _).symm, ?_, ?_⟩
      · intro change member
        exact .inl (List.mem_of_mem_filter member)
      · intro change underway
        by_cases own : change.id = id
        · exact .inr ⟨call, by simp [own]⟩
        · refine .inl (List.mem_filter.mpr ⟨underway, ?_⟩)
          simpa using own
  | _ => exact ⟨_, .refl _ _⟩

theorem leads_foldl (disk : Disk) (timeline : List Moment) :
    ∃ news, disk.Leads (recorded timeline) (timeline.foldl pass disk) news := by
  induction timeline generalizing disk with
  | nil => exact ⟨_, .refl _ _⟩
  | cons moment rest ih =>
    obtain ⟨news, later⟩ := ih (disk.pass moment)
    cases moment with
    | records entry =>
      obtain ⟨first, now⟩ := leads_observe disk entry
      exact ⟨_, now.trans later⟩
    | lands id => exact ⟨_, (leads_land disk id []).trans later⟩

/-- What is under way at the end of a timeline was called along it. -/
theorem made_of_underway {timeline : List Moment} {change : Change} (underway : change ∈ (after timeline).underway) :
    change.made ∈ recorded timeline := by
  obtain ⟨news, leads⟩ := leads_foldl empty timeline
  exact (leads.known change (List.mem_append_right _ underway)).resolve_left (List.not_mem_nil ·)

/-- A file that no change alters holds what it held. -/
theorem foldl_leaves_of_not_alters {key : List Component} {found : Option String}
    (apart : ∀ change ∈ news, ¬change.Alters key) :
    news.foldl (fun found change => (Event.called change.call).leaves key found) found = found := by
  rw [← List.foldl_map (f := fun change : Change => Event.called change.call) (g := Event.leaves key)]
  apply foldl_leaves_of_apart
  intro event member
  obtain ⟨change, present, rfl⟩ := List.mem_map.mp member
  exact apart change present

/-- The last time that a change has landed. -/
theorem exists_last_of_mem {change : Change} (member : change ∈ news) :
    ∃ early late, news = early ++ change :: late ∧ change ∉ late := by
  obtain ⟨late, early, split, apart⟩ := List.eq_append_cons_of_mem (List.mem_reverse.mpr member)
  refine ⟨early.reverse, late.reverse, ?_, by simpa using apart⟩
  rw [← List.reverse_reverse news, split]
  simp

/-- A change that is under way lands by the time that its call returns well. -/
theorem leads_returned {change : Change} {between : List Moment} (underway : change ∈ disk.underway)
    (unfailed : ∀ call, .returned change.id call false ∉ recorded between) (call : Call) (behind : List Moment) :
    ∃ news, disk.Leads (recorded (between ++ .records (.returned change.id call true) :: behind))
      ((between ++ .records (.returned change.id call true) :: behind).foldl pass disk) news ∧ change ∈ news := by
  obtain ⟨before, waits⟩ := leads_foldl disk between
  have lands := leads_land (between.foldl pass disk) change.id [.returned change.id call true]
  obtain ⟨others, rest⟩ := leads_foldl ((between.foldl pass disk).land change.id) behind
  refine ⟨before ++ ((between.foldl pass disk).underway.filter (·.id = change.id) ++ others), ?_, ?_⟩
  · rw [recorded_append, recorded_records, List.foldl_append, List.foldl_cons]
    exact waits.trans (lands.trans rest)
  · rcases waits.kept change underway with here | ⟨call, failed⟩
    · rcases List.mem_append.mp here with early | underway
      · exact List.mem_append_left _ early
      · have now : change ∈ (between.foldl pass disk).underway.filter (·.id = change.id) :=
          List.mem_filter.mpr ⟨underway, decide_eq_true rfl⟩
        exact List.mem_append_right _ (List.mem_append_left _ now)
    · exact (unfailed call failed).elim

/-- A change has landed once its call has returned well. What lands after it was under way at first or has
been called meanwhile. -/
theorem exists_landed {change : Change} {call : Call} {before between behind : List Moment}
    (changes : (Event.called change.call).changes?.isSome = true)
    (unfailed : ∀ call, .returned change.id call false ∉ recorded between) (disk : Disk) :
    let timeline := before ++ .records change.made ::
      (between ++ .records (.returned change.id call true) :: behind)
    ∃ early late, (timeline.foldl pass disk).landed = early ++ change :: late ∧ change ∉ late ∧
      ∀ other ∈ late, other ∈ disk.underway ∨ other.made ∈ recorded timeline := by
  intro timeline
  obtain ⟨_, first⟩ := leads_foldl disk before
  have called : ((before.foldl pass disk).observe change.made).underway =
      (before.foldl pass disk).underway ++ [change] := by
    simp only [Change.made, observe, changes, if_true]
  have underway : change ∈ ((before.foldl pass disk).observe change.made).underway := by simp [called]
  obtain ⟨news, leads, landed⟩ := leads_returned underway unfailed call behind
  obtain ⟨early, late, rfl, last⟩ := exists_last_of_mem landed
  refine ⟨((before.foldl pass disk).observe change.made).landed ++ early, late, ?_, last, ?_⟩
  · rw [List.append_assoc, ← leads.landed, List.foldl_append]
    rfl
  · intro other member
    rw [recorded_append, recorded_records, List.mem_append, List.mem_cons]
    rcases leads.known other (by simp [member]) with underway | made
    · rw [called] at underway
      rcases List.mem_append.mp underway with earlier | own
      · exact (first.known other (List.mem_append_right _ earlier)).imp_right .inl
      · exact (last (List.mem_singleton.mp own ▸ member)).elim
    · exact .inr (.inr (.inr made))

end Disk

variable {configuration : Configuration} {run : Run} {id : ℕ} {demand : Demand} {staged : Staged}
  {entries past future : List Entry}

/-- A request that writes its artifact has done nothing else. -/
theorem lived_of_writing {purpose : Purpose}
    (lived : Lived configuration id demand entries (some (.writing staged purpose))) :
    entries = [.began id demand, .did id (.called (.write staged.artifact.path staged.artifact.content))] := by
  obtain ⟨workspace, turn, -, starts, writes, rfl⟩ := lived.of_isFirst rfl
  rw [trail_of_waiting writes rfl, starts.of_writing writes]
  rfl

/-- A validation that waits for the checker has written its artifact before, and has done nothing else. -/
theorem lived_of_checking (lived : Lived configuration id demand entries (some (.checking staged))) :
    entries = [.began id demand, .did id (.called (.write staged.artifact.path staged.artifact.content)),
      .returned id (.write staged.artifact.path staged.artifact.content) true,
      .did id (.called (.check [staged.artifact.path]))] := by
  generalize checks : some (Request.checking staged) = left at lived
  cases lived with
  | begun configured starts => exact (starts.not_checking (Option.some.inj checks).symm).elim
  | resumed configured lived calls continues =>
    have checks := (Option.some.inj checks).symm
    obtain ⟨rfl, rfl, events⟩ := continues.of_checking checks
    cases calls
    rw [lived_of_writing lived, trail_of_waiting checks rfl, events]
    rfl
  | dropped => cases checks

/-- From its beginning on the newest request of a lane is the only one that changes the artifact. -/
theorem Ordered.sole_writer (ordered : Ordered configuration run) {key : List Component} {other : ℕ}
    {event : Event} (split : run.record = past ++ .began id demand :: future)
    (laned : demand.lane? configuration = some ⟨.checker, key⟩)
    (newest : newest? configuration ⟨.checker, key⟩ run.record = some id)
    (changes : event.changes?.map Path.components = some key) (member : .did other event ∈ future) :
    other = id := by
  obtain ⟨path, changed, rfl⟩ := Option.map_eq_some_iff.mp changes
  obtain ⟨front, back, rfl⟩ := List.append_of_mem member
  have parted : run.record = past ++ [.began id demand] ++ front ++ .did other event :: back := by simp [split]
  obtain ⟨demand', lane, -, -, holder, concerns⟩ :=
    ordered.holder parted (Event.isGuarded_of_changes? changed)
  obtain rfl := concerns.files path changed
  have first : newest? configuration ⟨.checker, path.components⟩ (past ++ [.began id demand]) = some id := by
    rw [newest?_began, if_pos laned]
  have once := ordered.once
  rw [parted] at once newest
  exact Option.some.inj (holder.symm.trans (newest?_between once first newest))

/-- The moment at which the first entry about a request is recorded. -/
theorem exists_moment_about {timeline : List Moment} {first : Entry} {rest : List Entry}
    (told : about id (recorded timeline) = first :: rest) :
    ∃ before behind, timeline = before ++ .records first :: behind ∧ about id (recorded before) = [] ∧
      about id (recorded behind) = rest := by
  obtain ⟨past, future, split, quiet, -, later⟩ := List.filter_eq_cons_iff.mp told
  obtain ⟨before, rest, rfl, early, late⟩ := List.filterMap_eq_append_iff.mp split
  obtain ⟨silent, moment, behind, rfl, nothing, now, following⟩ := List.filterMap_eq_cons_iff.mp late
  have between : recorded silent = [] := List.filterMap_eq_nil_iff.mpr nothing
  refine ⟨before ++ silent, behind, ?_, ?_, ?_⟩
  · cases moment with
    | records entry =>
      obtain rfl := Option.some.inj now
      simp
    | lands id => cases now
  · rw [recorded_append, between, List.append_nil, recorded, early]
    exact List.filter_eq_nil_iff.mpr quiet
  · rw [recorded, following]
    exact later

/-- What a request has called to change has landed once the call has returned well. -/
theorem Disk.exists_landed_about (change : Change) {call : Call} {timeline : List Moment} {rest : List Entry}
    (told : about change.id (recorded timeline) = change.made :: .returned change.id call true :: rest)
    (changes : (Event.called change.call).changes?.isSome = true) (disk : Disk) :
    ∃ early late, (timeline.foldl pass disk).landed = early ++ change :: late ∧ change ∉ late ∧
      ∀ other ∈ late, other ∈ disk.underway ∨ other.made ∈ recorded timeline := by
  obtain ⟨before, following, rfl, -, later⟩ := exists_moment_about told
  obtain ⟨between, behind, rfl, idle, -⟩ := exists_moment_about later
  refine exists_landed changes (fun call failed => ?_) disk
  exact List.filter_eq_nil_iff.mp idle _ failed (decide_eq_true rfl)

/-- A validation waits for the checker with a current ticket. In every timeline of every run what it wrote
has landed then, and the only changes of its artifact that have landed on top of that are those of other
requests that were under way when it began. If there are none, the artifact holds exactly what it wrote. -/
theorem artifact_intact_but_for_earlier_changes (configuration : Configuration) (actions : List Action)
    {timeline : List Moment} (told : recorded timeline = (after configuration actions).record)
    (waits : (after configuration actions).waiting id = some (.checking staged))
    (current : (after configuration actions).workspace.isCurrent staged = true) :
    ∃ document past future early late,
      staged.Serves configuration (.validate .checker document) ∧
      timeline = past ++ .records (.began id (.validate .checker document)) :: future ∧
      (Disk.after timeline).landed =
        early ++ ⟨id, .write staged.artifact.path staged.artifact.content⟩ :: late ∧
      (∀ change ∈ late, change.Alters staged.artifact.path.components →
        change.id ≠ id ∧ change ∈ (Disk.after past).underway) ∧
      ((∀ change ∈ late, ¬change.Alters staged.artifact.path.components) → ∀ first,
        (Disk.after timeline).holds? staged.artifact.path.components first = some staged.artifact.content) := by
  have ordered := ordered_after configuration actions
  obtain ⟨demand, began, serves⟩ := ordered.begun id _ waits
  obtain ⟨mode, document, rfl⟩ := Demand.eq_validate_of_purpose? (.inr (serves.aim _ rfl))
  cases mode with
  | matcher => cases serves.aim _ rfl
  | checker =>
    have served := serves.staged staged rfl
    have lane := served.lane_eq served.mode
    have newest := (ordered.current id _ staged waits rfl).mp current
    have laned := served.lane
    rw [lane] at newest laned
    obtain ⟨left, lives⟩ := lives_after configuration actions began
    obtain rfl := lives.waits _ waits
    have entries := lived_of_checking lives.lived
    rw [← told] at entries
    obtain ⟨past, future, rfl, fresh, later⟩ := exists_moment_about entries
    obtain ⟨early, late, landed, last, known⟩ := Disk.exists_landed_about
      ⟨id, .write staged.artifact.path staged.artifact.content⟩ later rfl (Disk.after past)
    have split : (after configuration actions).record =
        recorded past ++ .began id (.validate .checker document) :: recorded future := by
      rw [← told, recorded_append, recorded_records]
    have fold : Disk.after (past ++ .records (.began id (.validate .checker document)) :: future) =
        future.foldl Disk.pass (Disk.after past) := by
      rw [Disk.after, List.foldl_append, List.foldl_cons]
      rfl
    refine ⟨document, past, future, early, late, served, rfl, fold ▸ landed, ?_, ?_⟩
    · intro change member alters
      -- what has been called since the beginning has been called by the request itself, which wrote only once
      have foreign : change.id ≠ id := by
        rintro rfl
        rcases known change member with underway | made
        · have early := Disk.made_of_underway underway
          exact List.filter_eq_nil_iff.mp fresh _ early (decide_eq_true rfl)
        · have own : change.made ∈ about change.id (recorded future) :=
            List.mem_filter.mpr ⟨made, decide_eq_true rfl⟩
          rw [later] at own
          obtain ⟨id, call⟩ := change
          simp only [Change.made, List.mem_cons, reduceCtorEq, List.not_mem_nil, or_false, false_or,
            Entry.did.injEq, true_and, Event.called.injEq] at own
          rcases own with rfl | rfl
          · exact last member
          · cases alters
      refine ⟨foreign, (known change member).resolve_right fun made => foreign ?_⟩
      exact ordered.sole_writer split laned newest alters made
    · intro apart first
      rw [Disk.holds?, fold, landed, List.foldl_append, List.foldl_cons, Disk.foldl_leaves_of_not_alters apart]
      exact if_pos rfl

/-- A validation begins while the write of an older one is under way, and waits for the checker then. -/
def besideWrite : List Action :=
  [.begin 0 (.validate .checker sampleDocument), .begin 1 (.validate .checker extendedDocument),
    .reply 1 sampleSurroundings (.finished true)]

/-- A validation begins while the removal of an older one is under way, and waits for the checker then. -/
def besideRemoval : List Action :=
  [.begin 0 (.validate .checker sampleDocument), .reply 0 sampleSurroundings (.finished true),
    .reply 0 sampleSurroundings (.report (.ok [])), .begin 1 (.validate .checker extendedDocument),
    .reply 1 sampleSurroundings (.finished true)]

/-- The entries of a record, and after them a change that lands if one is under way. -/
def landingLast (id : ℕ) (record : List Entry) : List Moment := record.map .records ++ [.lands id]

theorem recorded_landingLast (id : ℕ) (record : List Entry) : recorded (landingLast id record) = record := by
  have told : recorded (record.map .records) = record := by
    rw [recorded, List.filterMap_map]
    exact List.filterMap_some
  rw [landingLast, recorded_append, told]
  exact List.append_nil _

/-- The artifact that a validation has the checker look at. -/
def checks? : Request → Option Staged
  | .checking staged => some staged
  | _ => none

theorem exists_checking {test : Staged → Bool} (passes : ((run.waiting id).bind checks?).any test = true) :
    ∃ staged, run.waiting id = some (.checking staged) ∧ test staged = true := by
  obtain ⟨staged, bound, passed⟩ := (Option.any_eq_true ..).mp passes
  obtain ⟨request, waits, checks⟩ := Option.bind_eq_some_iff.mp bound
  cases request with
  | checking own =>
    cases checks
    exact ⟨staged, waits, passed⟩
  | _ => cases checks

/-- The artifact of the newer validation is intact if nothing but its own write has landed. -/
theorem artifact_intact_but_for_earlier_changes_unlanded :
    ∃ staged, (after .default besideWrite).waiting 1 = some (.checking staged) ∧
      (after .default besideWrite).workspace.isCurrent staged = true ∧ ∀ first,
        (Disk.after (landingLast 1 (after .default besideWrite).record)).holds?
          staged.artifact.path.components first = some staged.artifact.content := by
  obtain ⟨staged, waits, passed⟩ : ∃ staged, (after .default besideWrite).waiting 1 = some (.checking staged) ∧
      ((after .default besideWrite).workspace.isCurrent staged &&
        decide ((Disk.after (landingLast 1 (after .default besideWrite).record)).landed =
          [⟨1, .write staged.artifact.path staged.artifact.content⟩])) = true :=
    exists_checking (by decide +kernel)
  obtain ⟨current, alone⟩ := Bool.and_eq_true_iff.mp passed
  obtain ⟨_, _, _, early, late, -, -, landed, -, intact⟩ :=
    artifact_intact_but_for_earlier_changes .default besideWrite (recorded_landingLast 1 _) waits current
  refine ⟨staged, waits, current, intact ?_⟩
  rw [of_decide_eq_true alone] at landed
  obtain ⟨-, rfl⟩ : early = [] ∧ late = [] := by
    cases early with
    | nil => simpa using landed
    | cons first early => simp at landed
  simp

/-- A validation that waits for the checker with a current ticket finds its artifact as it wrote it. -/
def ArtifactIntact (run : Run) (timeline : List Moment) : Prop :=
  ∀ id staged, run.waiting id = some (.checking staged) → run.workspace.isCurrent staged = true → ∀ first,
    (Disk.after timeline).holds? staged.artifact.path.components first = some staged.artifact.content

/-- A write or a removal of an older validation that lands late hits the artifact of the newer one. -/
theorem artifact_not_intact :
    (∃ timeline, recorded timeline = (after .default besideWrite).record ∧
      ¬ArtifactIntact (after .default besideWrite) timeline) ∧
    ∃ timeline, recorded timeline = (after .default besideRemoval).record ∧
      ¬ArtifactIntact (after .default besideRemoval) timeline := by
  have hit {run : Run} {timeline : List Moment}
      (spoiled : ((run.waiting 1).bind checks?).any (fun staged => run.workspace.isCurrent staged &&
        decide ((Disk.after timeline).holds? staged.artifact.path.components none ≠ some staged.artifact.content))
          = true) : ¬ArtifactIntact run timeline := by
    intro intact
    obtain ⟨staged, waits, passed⟩ := exists_checking spoiled
    obtain ⟨current, other⟩ := Bool.and_eq_true_iff.mp passed
    exact of_decide_eq_true other (intact 1 staged waits current none)
  exact ⟨⟨landingLast 0 _, recorded_landingLast .., hit (by decide +kernel)⟩,
    ⟨landingLast 0 _, recorded_landingLast .., hit (by decide +kernel)⟩⟩

end Run
end TypedJson
