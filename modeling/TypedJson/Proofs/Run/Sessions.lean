import TypedJson.Proofs.Run.Record
import TypedJson.Session
import Mathlib.Data.Fintype.EquivFin

/-! # Sessions are runs

A session gives replies from scripts and holds calls, so it is one of the ways in which requests can be
interleaved. `Hosts` names the requests of a session: each step of a session takes a run that hosts its
state to one that hosts the next state, and what the session logs is what the run records. So what holds
of all runs holds of all sessions.
-/

namespace TypedJson

open Session (State Thread Script Status)

/-- The event that an entry of the record of a run tells of. -/
def Run.Entry.event? : Run.Entry → Option Event
  | .did _ event => some event
  | _ => none

/-- The event that an entry of the log of a session tells of. -/
def Session.Entry.event? : Session.Entry → Option Event
  | .event happening => some happening
  | .nested _ => none

/-- The log of a step of a session that ran to an end or to a held call. -/
def Session.Status.log? : Status → Option (List Session.Entry)
  | .done log _ | .held _ log => some log
  | .dropped | .gone => none

theorem Session.Script.fits_reply (script : Script) (call : Call) : (script.reply call).fits call = true := by
  cases call <;> rfl

theorem mem_of_getMember? {α : Type} {name : String} {members : List (String × α)} {value : α}
    (found : getMember? name members = some value) : (name, value) ∈ members := by
  induction members with
  | nil => cases found
  | cons member rest ih =>
    obtain ⟨other, first⟩ := member
    simp only [getMember?] at found
    split at found
    case isTrue same =>
      cases found
      exact same ▸ List.mem_cons_self ..
    case isFalse => exact List.mem_cons_of_mem _ (ih found)

namespace Run

variable {run : Run} {thread : Thread} {id : ℕ} {ids : List ℕ}

/-- What was done in a run, in order. -/
def happened (record : List Entry) : List Event := record.filterMap Entry.event?

/-- What a log tells, in order. -/
def told (log : List Session.Entry) : List Event := log.filterMap Session.Entry.event?

theorem happened_follow {heading : Entry} {turn : Turn} (silent : heading.event? = none) :
    happened (run.follow id heading turn).record = happened run.record ++ turn.events := by
  have stretch : happened (trail id turn) = turn.events := by
    rw [happened, trail, List.filterMap_append, List.filterMap_map]
    have events : turn.events.filterMap (Entry.event? ∘ .did id) = turn.events := List.filterMap_some
    rw [events]
    -- the end of a request is no event
    cases turn.request <;> exact List.append_nil _
  rw [happened, follow, List.filterMap_append, List.filterMap_cons_none silent, ← happened, ← happened, stretch]

theorem told_record (log : List Session.Entry) (events : List Event) :
    told (Session.record log events).reverse = told log.reverse ++ events := by
  simp [told, Session.record, List.filterMap_map, Session.Entry.event?, Function.comp_def]

theorem exists_fresh (run : Run) : ∃ id, id ∉ names run.record := by
  obtain ⟨id, fresh⟩ := Infinite.exists_notMem_finset (names run.record).toFinset
  exact ⟨id, by simpa using fresh⟩

/-- A run carries a thread: its innermost request under a name, and the outer ones, which wait, under
others. -/
structure Carries (run : Run) (thread : Thread) (id : ℕ) (ids : List ℕ) : Prop where
  inner : run.waiting id = remaining thread.request
  outer : ids.map run.waiting = thread.outer.map some
  once : (id :: ids).Nodup
  begun : ∀ other ∈ id :: ids, other ∈ names run.record

/-- Where only another name is concerned, what waits under the given names stays the same. -/
theorem map_update_of_not_mem (apart : id ∉ ids) (waiting : ℕ → Option Request) (remains : Option Request) :
    ids.map (Function.update waiting id remains) = ids.map waiting := by
  apply List.map_congr_left
  intro other member
  exact Function.update_of_ne (ne_of_mem_of_not_mem member apart) ..

theorem map_waiting_follow {heading : Entry} {turn : Turn} (apart : id ∉ ids) :
    ids.map (run.follow id heading turn).waiting = ids.map run.waiting := map_update_of_not_mem apart ..

theorem map_waiting_abandon {request : Request} (apart : id ∉ ids) :
    ids.map (run.abandon id request).waiting = ids.map run.waiting := map_update_of_not_mem apart ..

/-- A stretch of the innermost request of a thread. -/
theorem Carries.follow (carries : Carries run thread id ids) (heading : Entry) (turn : Turn) :
    Carries (run.follow id heading turn) (thread.follow turn) id ids where
  inner := Function.update_self ..
  outer := (map_waiting_follow (List.nodup_cons.mp carries.once).1).trans carries.outer
  once := carries.once
  begun := by
    intro other member
    rw [follow_names, names_append]
    exact List.mem_append_left _ (carries.begun other member)

theorem remaining_of_call? {request : Request} {call : Call} (calls : request.call? = some call) :
    remaining request = some request := by
  cases request <;> first | rfl | cases calls

/-- From one run to the next, requests other than the claimed ones are left alone, and the record of who
has begun grows. -/
structure Frame (run : Run) (claimed : List ℕ) (next : Run) : Prop where
  others : ∀ other ∈ names run.record, other ∉ claimed → next.waiting other = run.waiting other
  begun : names run.record ⊆ names next.record

theorem Frame.refl (run : Run) (claimed : List ℕ) : Frame run claimed run := ⟨fun _ _ _ => rfl, fun _ => id⟩

theorem Frame.trans {middle next : Run} {claimed later : List ℕ} (first : Frame run claimed middle)
    (second : Frame middle later next) (new : ∀ other ∈ later, other ∈ claimed ∨ other ∉ names run.record) :
    Frame run claimed next where
  others := by
    intro other begun apart
    have unclaimed : other ∉ later := by
      intro member
      rcases new other member with claimed | fresh
      · exact apart claimed
      · exact fresh begun
    rw [second.others other (first.begun begun) unclaimed, first.others other begun apart]
  begun := fun _ begun => second.begun (first.begun begun)

theorem Frame.follow {claimed : List ℕ} {heading : Entry} {turn : Turn}
    (own : id ∈ claimed ∨ id ∉ names run.record) : Frame run claimed (run.follow id heading turn) where
  others := by
    intro other begun apart
    apply Function.update_of_ne
    rintro rfl
    rcases own with claimed | fresh
    · exact apart claimed
    · exact fresh begun
  begun := by
    intro other begun
    rw [follow_names, names_append]
    exact List.mem_append_left _ begun

/-- The stretch of a thread whose call is due is a step of the run: a nested request begins, or the
innermost request gets its reply. -/
theorem Carries.due (carries : Carries run thread id ids) (aliasing : Aliasing) {call : Call}
    (calls : thread.request.call? = some call) :
    ∃ action id' ids', Carries (run.step action) (thread.due aliasing run.workspace call).1 id' ids' ∧
      (run.step action).workspace = (thread.due aliasing run.workspace call).2.workspace ∧
      happened (run.step action).record =
        happened run.record ++ (thread.due aliasing run.workspace call).2.events ∧
      Frame run (id :: ids) (run.step action) ∧
      ∀ other ∈ id' :: ids', other ∈ id :: ids ∨ other ∉ names run.record := by
  have waits : run.waiting id = some thread.request := carries.inner.trans (remaining_of_call? calls)
  unfold Session.Thread.due
  split
  · rename_i document position _ _ _
    obtain ⟨fresh, new⟩ := exists_fresh run
    have apart : fresh ∉ id :: ids := fun member => new (carries.begun fresh member)
    refine ⟨.begin fresh (.complete document position), fresh, id :: ids, ?_⟩
    rw [step_begin new]
    refine ⟨⟨Function.update_self .., ?_, List.nodup_cons.mpr ⟨apart, carries.once⟩, ?_⟩, rfl,
      happened_follow rfl, .follow (.inr new), ?_⟩
    · rw [map_waiting_follow apart, List.map_cons, carries.outer, waits]
      rfl
    · intro other member
      rw [follow_names, names_append]
      rcases List.mem_cons.mp member with rfl | old
      · exact List.mem_append_right _ (List.mem_singleton_self _)
      · exact List.mem_append_left _ (carries.begun other old)
    · intro other member
      rcases List.mem_cons.mp member with rfl | old
      · exact .inr new
      · exact .inl old
  · refine ⟨.reply id (thread.script.surroundings aliasing thread.asked) (thread.script.reply call), id, ids, ?_⟩
    rw [step_reply waits calls (thread.script.fits_reply call)]
    exact ⟨carries.follow .., rfl, happened_follow rfl, .follow (.inl (List.mem_cons_self ..)),
      fun other member => .inl member⟩

/-- A run has done what a thread did until it ended or a call was held. -/
structure Follows (run : Run) (claimed : List ℕ) (log : List Session.Entry)
    (result : Workspace × Option Thread × Status) (next : Run) : Prop where
  workspace : next.workspace = result.1
  thread : ∀ thread, result.2.1 = some thread → thread.request.call?.isSome = true ∧ ∃ id ids,
    Carries next thread id ids ∧ ∀ other ∈ id :: ids, other ∈ claimed ∨ other ∉ names run.record
  frame : Frame run claimed next
  logged : ∀ entries ∈ result.2.2.log?, ∃ recent, told entries = told log.reverse ++ recent ∧
    happened next.record = happened run.record ++ recent

/-- Nothing is left to do for a thread that has stopped. -/
theorem Follows.stop {claimed : List ℕ} {log : List Session.Entry} {status : Status}
    (logged : ∀ entries ∈ status.log?, told entries = told log.reverse) :
    Follows run claimed log (run.workspace, none, status) run where
  workspace := rfl
  thread := by
    intro _ stopped
    cases stopped
  frame := .refl run claimed
  logged := by
    intro entries member
    exact ⟨[], by simp [logged entries member], by simp⟩

/-- What follows after a stretch follows from before it. -/
theorem Follows.after {middle next : Run} {claimed later : List ℕ} {log longer : List Session.Entry}
    {events : List Event} {result : Workspace × Option Thread × Status}
    (follows : Follows middle later (Session.record longer events) result next)
    (same : told longer.reverse = told log.reverse) (frame : Frame run claimed middle)
    (new : ∀ other ∈ later, other ∈ claimed ∨ other ∉ names run.record)
    (stretch : happened middle.record = happened run.record ++ events) :
    Follows run claimed log result next where
  workspace := follows.workspace
  thread := by
    intro thread stopped
    obtain ⟨waits, id, ids, carries, old⟩ := follows.thread thread stopped
    refine ⟨waits, id, ids, carries, ?_⟩
    intro other member
    rcases old other member with claimed | fresh
    · exact new other claimed
    · right
      intro begun
      exact fresh (frame.begun begun)
  frame := frame.trans follows.frame new
  logged := by
    intro entries member
    obtain ⟨recent, tells, happens⟩ := follows.logged entries member
    refine ⟨events ++ recent, ?_, ?_⟩
    · rw [tells, told_record, same, List.append_assoc]
    · rw [happens, stretch, List.append_assoc]

/-- Running a thread is taking steps of the run that carries it. -/
theorem Carries.exists_follows (carries : Carries run thread id ids) (aliasing : Aliasing) (bound : ℕ)
    (log : List Session.Entry) :
    ∃ actions : List Action, Follows run (id :: ids) log (Session.Thread.run aliasing bound run.workspace thread log)
      (actions.foldl step run) := by
  induction bound generalizing run thread log id ids with
  | zero =>
    refine ⟨[], .stop ?_⟩
    intro _ logged
    cases logged
  | succ bound ih =>
    unfold Session.Thread.run
    split
    · rename_i answer _ _
      split
      · refine ⟨[], .stop ?_⟩
        intro _ logged
        cases logged
        rfl
      · rename_i outer others nested
        -- the nested request has ended, and the outer one gets its reply; the log holds at most the
        -- items of the nested one in between, which are no event
        have same {longer : List Session.Entry} (noted : longer = log ∨ ∃ items, longer = .nested items :: log) :
            told longer.reverse = told log.reverse := by
          rcases noted with rfl | ⟨items, rfl⟩
          · rfl
          · simp [told, Session.Entry.event?]
        have stack : ids.map run.waiting = some outer :: others.map some := by
          rw [carries.outer, nested]
          rfl
        obtain ⟨first, rest, rfl, waits, outer'⟩ := List.map_eq_cons_iff.mp stack
        dsimp only
        split
        · refine ⟨[], .stop ?_⟩
          intro _ logged
          cases logged
          exact same (by cases answer <;> simp)
        · rename_i call calls
          have carried : Carries run { thread with request := outer, outer := others } first rest :=
            ⟨waits.trans (remaining_of_call? calls).symm, outer', (List.nodup_cons.mp carries.once).2,
              fun other member => carries.begun other (List.mem_cons_of_mem _ member)⟩
          have carries' := carried.follow (.returned first call (thread.script.reply call).succeeds)
            (outer.resume (thread.script.surroundings aliasing thread.asked) run.workspace
              (thread.script.reply call))
          obtain ⟨actions, follows⟩ := ih carries' (Session.record _ _)
          refine ⟨.reply first (thread.script.surroundings aliasing thread.asked) (thread.script.reply call) ::
            actions, ?_⟩
          rw [List.foldl_cons, step_reply waits calls (thread.script.fits_reply call)]
          refine follows.after (same (by cases answer <;> simp)) (.follow (.inl ?_)) ?_ (happened_follow rfl)
          · exact List.mem_cons_of_mem _ (List.mem_cons_self ..)
          · intro other member
            exact .inl (List.mem_cons_of_mem _ member)
    · refine ⟨[], .stop ?_⟩
      intro _ logged
      cases logged
    · rename_i call _ calls
      split
      · rename_i name _
        refine ⟨[], rfl, ?_, .refl .., ?_⟩
        · rintro _ ⟨⟩
          exact ⟨by rw [calls]; rfl, id, ids, carries, fun other member => .inl member⟩
        · rintro _ ⟨⟩
          exact ⟨[], by simp, by simp⟩
      · obtain ⟨action, id', ids', carries', workspace, stretch, frame, new⟩ :=
          carries.due aliasing calls
        obtain ⟨actions, follows⟩ := ih carries' (Session.record log _)
        rw [workspace] at follows
        exact ⟨action :: actions, follows.after rfl frame new stretch⟩

/-- A run hosts a session: the requests of each thread wait in it under names of their own. -/
structure Hosts (run : Run) (state : State) (ids : String → List ℕ) : Prop where
  workspace : run.workspace = state.workspace
  waits : ∀ name thread, (name, thread) ∈ state.threads → thread.request.call?.isSome = true ∧
    (ids name).map run.waiting = (thread.request :: thread.outer).map some
  once : ∀ name, (ids name).Nodup
  begun : ∀ name, ∀ id ∈ ids name, id ∈ names run.record
  apart : ∀ name other, name ≠ other → ∀ id ∈ ids name, id ∉ ids other

theorem hosts_empty (configuration : Configuration) :
    Hosts (empty configuration) (.empty configuration) fun _ => [] where
  workspace := rfl
  waits := by
    intro _ _ member
    cases member
  once := fun _ => List.nodup_nil
  begun := by
    intro _ _ member
    cases member
  apart := by
    intro _ _ _ _ member
    cases member

section Hosts

variable {state : State} {ids : String → List ℕ} {name : String}

/-- The threads of other names go on to wait as they did. -/
theorem Hosts.others (hosts : Hosts run state ids) {next : Run} (frame : Frame run (ids name) next)
    {other : String} {thread : Thread} (member : (other, thread) ∈ state.threads) (different : other ≠ name) :
    (ids other).map next.waiting = (thread.request :: thread.outer).map some := by
  rw [← (hosts.waits other thread member).2]
  apply List.map_congr_left
  intro id present
  exact frame.others id (hosts.begun other id present) (hosts.apart other name different id present)

/-- The thread of a name gives way to what has become of it. -/
theorem Hosts.settle (hosts : Hosts run state ids) {log : List Session.Entry}
    {result : Workspace × Option Thread × Status} {next : Run}
    (follows : Follows run (ids name) log result next) :
    ∃ ids', Hosts next (state.settle name result).1 ids' := by
  obtain ⟨workspace, stopped, status⟩ := result
  cases stopped with
  | none =>
    refine ⟨ids, follows.workspace, ?_, hosts.once, ?_, hosts.apart⟩
    · intro other thread member
      obtain ⟨old, different⟩ := List.mem_filter.mp member
      exact ⟨(hosts.waits other thread old).1, hosts.others follows.frame old (by simpa using different)⟩
    · intro other id present
      exact follows.frame.begun (hosts.begun other id present)
  | some thread =>
    obtain ⟨waits, id, rest, carries, own⟩ := follows.thread thread rfl
    obtain ⟨call, calls⟩ := Option.isSome_iff_exists.mp waits
    -- the names of the thread are old ones of its own, or new ones
    have disjoint {other : String} (different : other ≠ name) : ∀ taken ∈ ids other, taken ∉ id :: rest := by
      intro taken present member
      rcases own taken member with old | fresh
      · exact hosts.apart other name different taken present old
      · exact fresh (hosts.begun other taken present)
    refine ⟨Function.update ids name (id :: rest), ?_⟩
    constructor
    case workspace => exact follows.workspace
    case waits =>
      intro other thread' member
      rcases List.mem_cons.mp member with same | old
      · cases same
        rw [Function.update_self, List.map_cons, carries.inner, remaining_of_call? calls, carries.outer]
        exact ⟨waits, rfl⟩
      · obtain ⟨old, different⟩ := List.mem_filter.mp old
        have different : other ≠ name := by simpa using different
        rw [Function.update_of_ne different]
        exact ⟨(hosts.waits other thread' old).1, hosts.others follows.frame old different⟩
    case once =>
      intro other
      by_cases same : other = name
      · subst same
        rw [Function.update_self]
        exact carries.once
      · rw [Function.update_of_ne same]
        exact hosts.once other
    case begun =>
      intro other taken present
      by_cases same : other = name
      · subst same
        rw [Function.update_self] at present
        exact carries.begun taken present
      · rw [Function.update_of_ne same] at present
        exact follows.frame.begun (hosts.begun other taken present)
    case apart =>
      intro first second different taken present
      by_cases same : first = name
      · subst same
        rw [Function.update_self] at present
        rw [Function.update_of_ne different.symm]
        intro other
        exact disjoint different.symm taken other present
      · rw [Function.update_of_ne same] at present
        by_cases same' : second = name
        · subst same'
          rw [Function.update_self]
          exact disjoint same taken present
        · rw [Function.update_of_ne same']
          exact hosts.apart first second different taken present

/-- A run can be continued so that it hosts the outcome of a step of a session and has done what the step
logs. -/
def Realizes (run : Run) (outcome : State × Status) : Prop :=
  ∃ (actions : List Action) (ids : String → List ℕ), Hosts (actions.foldl step run) outcome.1 ids ∧
    ∀ entries ∈ outcome.2.log?,
      happened (actions.foldl step run).record = happened run.record ++ told entries

theorem settle_status (state : State) (name : String) (result : Workspace × Option Thread × Status) :
    (state.settle name result).2 = result.2.2 := by
  obtain ⟨workspace, _ | thread, status⟩ := result <;> rfl

theorem Hosts.realizes_settle (hosts : Hosts run state ids) (actions : List Action)
    {result : Workspace × Option Thread × Status}
    (follows : Follows run (ids name) [] result (actions.foldl step run)) :
    Realizes run (state.settle name result) := by
  obtain ⟨ids', hosts'⟩ := hosts.settle follows
  refine ⟨actions, ids', hosts', ?_⟩
  intro entries member
  rw [settle_status] at member
  obtain ⟨recent, tells, happens⟩ := follows.logged entries member
  rw [happens, tells]
  rfl

/-- A request of a session begins in the run that hosts it. -/
theorem Hosts.start (hosts : Hosts run state ids) (aliasing : Aliasing) (name : String) (script : Script)
    (demand : Demand) :
    Realizes run (state.start aliasing name script (demand.start state.workspace)) := by
  obtain ⟨fresh, new⟩ := exists_fresh run
  rw [← hosts.workspace]
  have carries : Carries (run.follow fresh (.began fresh demand) (demand.start run.workspace))
      ⟨script, (demand.start run.workspace).request, [], false,
        Session.questions (demand.start run.workspace).events⟩ fresh [] := by
    refine ⟨Function.update_self .., rfl, List.nodup_singleton fresh, ?_⟩
    intro other member
    obtain rfl := List.mem_singleton.mp member
    rw [follow_names, names_append]
    exact List.mem_append_right _ (List.mem_singleton_self _)
  obtain ⟨actions, follows⟩ := carries.exists_follows aliasing
    (Session.stretches (demand.start run.workspace).workspace)
    (Session.record [] (demand.start run.workspace).events)
  refine hosts.realizes_settle (.begin fresh demand :: actions) ?_
  rw [List.foldl_cons, step_begin new]
  apply follows.after rfl (.follow (.inr new)) _ (happened_follow rfl)
  intro other member
  obtain rfl := List.mem_singleton.mp member
  exact .inr new

/-- A held call of a session returns in the run that hosts it. -/
theorem Hosts.resume (hosts : Hosts run state ids) (aliasing : Aliasing) (name : String) :
    Realizes run (state.resume aliasing name) := by
  have unchanged {status : Status} (silent : status.log? = none) : Realizes run (state, status) := by
    refine ⟨[], ids, hosts, ?_⟩
    intro entries member
    simp [silent] at member
  unfold Session.State.resume
  split
  · exact unchanged rfl
  · rename_i thread found
    split
    · exact unchanged rfl
    · rename_i call calls
      obtain ⟨-, stack⟩ := hosts.waits name thread (mem_of_getMember? found)
      obtain ⟨id, rest, named, waits, outer⟩ := List.map_eq_cons_iff.mp stack
      have carries : Carries run thread id rest :=
        ⟨waits.trans (remaining_of_call? calls).symm, outer, named ▸ hosts.once name, named ▸ hosts.begun name⟩
      obtain ⟨action, id', rest', carries', workspace, stretch, frame, new⟩ := carries.due aliasing calls
      rw [← hosts.workspace]
      obtain ⟨actions, follows⟩ := carries'.exists_follows aliasing
        (Session.stretches (thread.due aliasing run.workspace call).2.workspace)
        (Session.record [] (thread.due aliasing run.workspace call).2.events)
      rw [workspace] at follows
      refine hosts.realizes_settle (action :: actions) ?_
      rw [named]
      exact follows.after rfl frame new stretch

/-- Requests that are dropped one after another leave the workspace as it is after their cancellations. -/
theorem foldl_drop {requests : List Request} {names' : List ℕ}
    (waits : names'.map run.waiting = requests.map some) (once : names'.Nodup) :
    ((names'.map Action.drop).foldl step run).workspace = requests.foldl Request.cancel run.workspace ∧
      names ((names'.map Action.drop).foldl step run).record = names run.record ∧
      ∀ other, other ∉ names' → ((names'.map Action.drop).foldl step run).waiting other = run.waiting other := by
  induction names' generalizing run requests with
  | nil =>
    obtain rfl := List.map_eq_nil_iff.mp waits.symm
    exact ⟨rfl, rfl, fun _ _ => rfl⟩
  | cons id rest ih =>
    obtain ⟨request, requests, rfl, waits', rest'⟩ := List.map_eq_cons_iff.mp waits.symm
    obtain ⟨apart, once⟩ := List.nodup_cons.mp once
    have same : rest.map (run.abandon id request).waiting = requests.map some := by
      rw [rest']
      exact map_waiting_abandon apart
    obtain ⟨workspace, begun, others⟩ := ih same once
    rw [List.map_cons, List.foldl_cons, step_drop waits'.symm]
    refine ⟨workspace, begun.trans ?_, ?_⟩
    · simp [abandon, names, Entry.opens?]
    · intro other unclaimed
      simp only [List.mem_cons, not_or] at unclaimed
      rw [others other unclaimed.2]
      exact Function.update_of_ne unclaimed.1 ..

/-- A request of a session is dropped from the run that hosts it. -/
theorem Hosts.drop (hosts : Hosts run state ids) (name : String) : Realizes run (state.drop name) := by
  unfold Session.State.drop
  split
  · refine ⟨[], ids, hosts, ?_⟩
    intro entries member
    cases member
  · rename_i thread found
    obtain ⟨-, stack⟩ := hosts.waits name thread (mem_of_getMember? found)
    obtain ⟨workspace, begun, others⟩ := foldl_drop stack (hosts.once name)
    rw [← hosts.workspace, ← workspace]
    have follows : Follows run (ids name) []
        (((ids name).map Action.drop).foldl step run |>.workspace, none, .dropped)
        (((ids name).map Action.drop).foldl step run) := by
      constructor
      case workspace => rfl
      case thread =>
        intro _ stopped
        cases stopped
      case frame =>
        constructor
        · intro other _ apart
          exact others other apart
        · rw [begun]
          exact List.Subset.refl _
      case logged =>
        intro _ logged
        cases logged
    exact hosts.realizes_settle _ follows

end Hosts

/-- The states that a session can be in. -/
inductive Reachable (configuration : Configuration) : State → Prop
  | empty : Reachable configuration (.empty configuration)
  | start {state : State} (reachable : Reachable configuration state) (aliasing : Aliasing) (name : String)
      (script : Script) (demand : Demand) :
      Reachable configuration (state.start aliasing name script (demand.start state.workspace)).1
  | resume {state : State} (reachable : Reachable configuration state) (aliasing : Aliasing) (name : String) :
      Reachable configuration (state.resume aliasing name).1
  | drop {state : State} (reachable : Reachable configuration state) (name : String) :
      Reachable configuration (state.drop name).1

/-- Every session is hosted by a run. -/
theorem exists_hosts {configuration : Configuration} {state : State} (reachable : Reachable configuration state) :
    ∃ actions ids, Hosts (after configuration actions) state ids := by
  have continued {state : State} {outcome : State × Status}
      (hosted : ∃ actions ids, Hosts (after configuration actions) state ids)
      (realizes : ∀ run ids, Hosts run state ids → Realizes run outcome) :
      ∃ actions ids, Hosts (after configuration actions) outcome.1 ids := by
    obtain ⟨actions, ids, hosts⟩ := hosted
    obtain ⟨more, ids', hosts', -⟩ := realizes _ ids hosts
    exact ⟨actions ++ more, ids', by rwa [after, List.foldl_append]⟩
  induction reachable with
  | empty => exact ⟨[], _, hosts_empty configuration⟩
  | start _ aliasing name script demand ih =>
    exact continued ih fun _ _ hosts => hosts.start aliasing name script demand
  | resume _ aliasing name ih => exact continued ih fun _ _ hosts => hosts.resume aliasing name
  | drop _ name ih => exact continued ih fun _ _ hosts => hosts.drop name

end Run
end TypedJson
