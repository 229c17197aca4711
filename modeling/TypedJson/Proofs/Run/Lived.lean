import TypedJson.Proofs.Run.Newest
import Mathlib.Data.List.Basic

/-! # The life of one request

A run mixes the stretches of many requests. `Lived` strings together those of one: the entries that tell of
them, and what is left of the request. Every request of a run has lived in this sense, so what holds along
all lives holds of the entries about each request in every record.
-/

namespace TypedJson

open Run (trail)

/-- The request that an entry of a record is about. -/
def Run.Entry.actor : Entry → ℕ
  | .began id _ | .did id _ | .returned id _ _ | .ended id _ | .dropped id => id

/-- The stretches of one request, one after the other: the entries about it, and what is left of it. -/
inductive Lived (configuration : Configuration) (id : ℕ) (demand : Demand) :
    List Run.Entry → Option Request → Prop
  | begun {workspace : Workspace} {turn : Turn} (configured : workspace.configuration = configuration)
      (starts : Starts workspace demand turn) :
      Lived configuration id demand (.began id demand :: trail id turn) (some turn.request)
  | resumed {workspace : Workspace} {surroundings : Surroundings} {entries : List Run.Entry} {request : Request}
      {call : Call} {reply : Reply} {turn : Turn} (configured : workspace.configuration = configuration)
      (lived : Lived configuration id demand entries (some request)) (calls : request.call? = some call)
      (continues : Continues surroundings workspace request reply turn) :
      Lived configuration id demand (entries ++ .returned id call reply.succeeds :: trail id turn)
        (some turn.request)
  | dropped {entries : List Run.Entry} {request : Request}
      (lived : Lived configuration id demand entries (some request)) :
      Lived configuration id demand (entries ++ [.dropped id]) none

theorem Request.remaining_of_call? {request : Request} {call : Call} (calls : request.call? = some call) :
    Run.remaining request = some request := by
  cases request <;> first | rfl | cases calls

theorem Request.call?_of_remaining {request waiting : Request} (remains : Run.remaining request = some waiting) :
    ∃ call, waiting.call? = some call := by
  cases request <;> cases remains <;> exact ⟨_, rfl⟩

/-- A request waits for such a reply only directly after it has begun. -/
def Request.isFirst : Request → Bool
  | writing _ _ | resolving _ _ | completingUntagged _ _ => true
  | _ => false

theorem Continues.isFirst_eq_false {surroundings : Surroundings} {workspace : Workspace} {request : Request}
    {reply : Reply} {turn : Turn} (continues : Continues surroundings workspace request reply turn) :
    turn.request.isFirst = false := by
  cases continues with
  | index =>
    simp only [Workspace.afterIndexing]
    split <;> rfl
  | suggested | looked =>
    simp only [Workspace.cleanUp]
    split <;> rfl
  | _ => rfl

/-- The life of a request that waits for its first reply is its first stretch. -/
theorem Lived.of_isFirst {configuration : Configuration} {id : ℕ} {demand : Demand} {entries : List Run.Entry}
    {request : Request} (lived : Lived configuration id demand entries (some request))
    (first : request.isFirst = true) :
    ∃ workspace turn, workspace.configuration = configuration ∧ Starts workspace demand turn ∧
      turn.request = request ∧ entries = .began id demand :: trail id turn := by
  generalize waits : some request = left at lived
  cases lived with
  | begun configured starts => exact ⟨_, _, configured, starts, (Option.some.inj waits).symm, rfl⟩
  | resumed configured lived calls continues =>
    rw [Option.some.inj waits, continues.isFirst_eq_false] at first
    cases first
  | dropped => cases waits

/-- All along its life a request is on the way to what was demanded. -/
theorem Lived.serves {configuration : Configuration} {id : ℕ} {demand : Demand} {entries : List Run.Entry}
    {left : Option Request} (lived : Lived configuration id demand entries left) :
    ∀ request ∈ left, Run.remaining request = some request → request.Serves configuration demand := by
  induction lived with
  | @begun workspace turn configured starts =>
    rintro request ⟨⟩ waits
    subst configured
    cases laned : demand.lane? workspace.configuration with
    | none =>
      obtain ⟨-, -, -, remains⟩ := starts.aside_of_lane? laned
      exact (remains _ waits).1
    | some lane =>
      obtain ⟨staged, -, fair⟩ := starts.fair laned
      exact (fair.remains _ waits).1
  | @resumed workspace surroundings entries before call reply turn configured lived calls continues ih =>
    rintro request ⟨⟩ waits
    subst configured
    have served := ih before rfl (Request.remaining_of_call? calls)
    cases works : before.staged? with
    | none => simp [(continues.aside works).2] at waits
    | some staged => exact ((continues.fair served works).remains _ waits).1
  | dropped => rintro request ⟨⟩

namespace Run

variable {configuration : Configuration} {run : Run} {record more : List Entry} {id other : ℕ}
  {demand : Demand} {heading entry : Entry} {turn : Turn}

/-- The entries about a request. -/
def about (id : ℕ) (record : List Entry) : List Entry := record.filter (·.actor = id)

/-- What a request did, by an entry of the record. -/
def Entry.deedOf? (id : ℕ) : Entry → Option Event
  | .did other event => if other = id then some event else none
  | _ => none

/-- Everything that a request did, in its order. -/
def deeds (id : ℕ) (record : List Entry) : List Event := record.filterMap (Entry.deedOf? id)

theorem deeds_append (id : ℕ) (record more : List Entry) :
    deeds id (record ++ more) = deeds id record ++ deeds id more := List.filterMap_append ..

theorem deeds_about (id : ℕ) (record : List Entry) : deeds id (about id record) = deeds id record := by
  rw [deeds, about, List.filterMap_filter]
  apply List.filterMap_congr
  intro entry _
  split
  case isTrue => rfl
  case isFalse foreign =>
    cases entry with
    | did other event =>
      have apart : ¬other = id := fun same => foreign (decide_eq_true same)
      exact (if_neg apart).symm
    | _ => rfl

theorem deeds_did (id : ℕ) (events : List Event) : deeds id (events.map (.did id)) = events := by
  have told (event : Event) : Entry.deedOf? id (.did id event) = some event := if_pos rfl
  rw [deeds, List.filterMap_map]
  exact (List.filterMap_congr fun event _ => told event).trans List.filterMap_some

theorem deeds_trail (id : ℕ) (turn : Turn) : deeds id (trail id turn) = turn.events := by
  rw [trail, deeds_append, deeds_did]
  cases turn.request <;> exact List.append_nil _

/-- A request that waits at the end of a stretch has only done things in it. -/
theorem trail_of_waiting {request : Request} {call : Call} (waits : turn.request = request)
    (calls : request.call? = some call) : trail id turn = turn.events.map (.did id) := by
  subst waits
  rw [trail]
  cases request : turn.request <;> first | exact List.append_nil _ | simp [request, Request.call?] at calls

/-- A stretch under a heading tells what was done in it. -/
theorem deeds_stretch (silent : heading.deedOf? id = none) : deeds id (heading :: trail id turn) = turn.events := by
  rw [deeds, List.filterMap_cons_none silent]
  exact deeds_trail id turn

theorem actor_trail (member : entry ∈ trail id turn) : entry.actor = id := by
  rcases List.mem_append.mp member with happened | last
  · obtain ⟨event, -, rfl⟩ := List.mem_map.mp happened
    rfl
  · cases finished : turn.request <;> simp only [finished, List.not_mem_nil, List.mem_singleton] at last
    rw [last]
    rfl

theorem actor_follow (own : heading.actor = id) (member : entry ∈ (run.follow id heading turn).record) :
    entry ∈ run.record ∨ entry.actor = id := by
  rcases List.mem_append.mp member with early | late
  · exact .inl early
  · rcases List.mem_cons.mp late with rfl | trailing
    · exact .inr own
    · exact .inr (actor_trail trailing)

/-- A stretch is told in entries about its request, which are kept or left out with it. -/
theorem filter_actor_follow (keeps : ℕ → Bool) (own : heading.actor = id) :
    (run.follow id heading turn).record.filter (keeps ·.actor) =
      run.record.filter (keeps ·.actor) ++ if keeps id then heading :: trail id turn else [] := by
  have actors : ∀ entry ∈ heading :: trail id turn, entry.actor = id := by
    intro entry member
    rcases List.mem_cons.mp member with rfl | trailing
    · exact own
    · exact actor_trail trailing
  rw [follow, List.filter_append]
  congr 1
  split
  case isTrue kept =>
    apply List.filter_eq_self.mpr
    intro entry member
    rwa [actors entry member]
  case isFalse left =>
    apply List.filter_eq_nil_iff.mpr
    intro entry member
    rwa [actors entry member]

theorem about_follow (own : heading.actor = id) :
    about id (run.follow id heading turn).record = about id run.record ++ heading :: trail id turn :=
  (filter_actor_follow (· = id) own).trans (by simp [about])

theorem about_follow_of_ne (own : heading.actor = other) (apart : other ≠ id) :
    about id (run.follow other heading turn).record = about id run.record :=
  (filter_actor_follow (· = id) own).trans (by simp [about, apart])

theorem about_abandon_of_ne {request : Request} (apart : other ≠ id) :
    about id (run.abandon other request).record = about id run.record := by
  simp [abandon, about, Entry.actor, apart]

/-- A request ends in a stretch of its own. -/
theorem ended_mem_follow {answer : Answer} (going : heading ≠ .ended id answer)
    (member : .ended id answer ∈ (run.follow other heading turn).record) :
    .ended id answer ∈ run.record ∨ other = id ∧ turn.request = .finished answer := by
  rcases List.mem_append.mp member with early | late
  · exact .inl early
  rcases List.mem_cons.mp late with same | trailing
  · exact (going same.symm).elim
  rcases List.mem_append.mp trailing with happened | last
  · obtain ⟨event, -, same⟩ := List.mem_map.mp happened
    cases same
  · cases finished : turn.request <;> simp only [finished, List.not_mem_nil, List.mem_singleton] at last
    cases last
    exact .inr ⟨rfl, rfl⟩

theorem Ordered.mem_names_of_waiting (ordered : Ordered configuration run) {request : Request}
    (waits : run.waiting id = some request) : id ∈ names run.record := by
  obtain ⟨demand, began, -⟩ := ordered.begun id request waits
  exact mem_names_iff.mpr ⟨demand, began⟩

/-- A record has entries only about requests that have begun. -/
theorem actor_mem_names (configuration : Configuration) (actions : List Action) :
    ∀ entry ∈ (after configuration actions).record, entry.actor ∈ names (after configuration actions).record := by
  refine (after_induction (motive := fun run => Ordered configuration run ∧
    ∀ entry ∈ run.record, entry.actor ∈ names run.record) ⟨ordered_empty, by simp [empty]⟩ ?_ actions).2
  rintro run action next ⟨ordered, attributed⟩ advances
  refine ⟨ordered.advance advances, ?_⟩
  intro entry member
  cases advances with
  | begin fresh =>
    rw [follow_names, names_append]
    rcases actor_follow rfl member with early | own
    · exact List.mem_append_left _ (attributed entry early)
    · exact List.mem_append_right _ (List.mem_singleton.mpr own)
  | reply waits calls fits =>
    rw [follow_names, names_append]
    apply List.mem_append_left
    rcases actor_follow rfl member with early | own
    · exact attributed entry early
    · exact own ▸ ordered.mem_names_of_waiting waits
  | drop waits =>
    rw [abandon, names_append]
    apply List.mem_append_left
    rcases List.mem_append.mp member with early | last
    · exact attributed entry early
    · obtain rfl := List.mem_singleton.mp last
      exact ordered.mem_names_of_waiting waits

/-- Each entry of a record was made by a step that did something. -/
theorem exists_advances_of_mem {actions : List Action} (member : entry ∈ (after configuration actions).record) :
    ∃ before action rest, actions = before ++ action :: rest ∧
      Advances (after configuration before) action (after configuration (before ++ [action])) ∧
      entry ∉ (after configuration before).record ∧
      entry ∈ (after configuration (before ++ [action])).record := by
  induction actions using List.reverseRecOn with
  | nil => cases member
  | append_singleton actions action ih =>
    by_cases early : entry ∈ (after configuration actions).record
    · obtain ⟨before, made, rest, rfl, advances, new, present⟩ := ih early
      exact ⟨before, made, rest ++ [action], by simp, advances, new, present⟩
    · refine ⟨actions, action, [], rfl, ?_, early, member⟩
      rw [after_concat] at member ⊢
      rcases step_eq_or_advances (after configuration actions) action with same | advances
      · rw [same] at member
        exact (early member).elim
      · exact advances

/-- A request has lived in a run, as the entries about it tell. What is left is what waits or has ended. -/
structure LivesAs (configuration : Configuration) (run : Run) (id : ℕ) (demand : Demand)
    (left : Option Request) : Prop where
  lived : Lived configuration id demand (about id run.record) left
  waits : ∀ request, run.waiting id = some request → left = some request
  ended : ∀ answer, .ended id answer ∈ run.record → left = some (.finished answer)

section LivesAs

variable {left : Option Request} {request : Request}

/-- A stretch of another request is no part of a life. -/
theorem LivesAs.follow_other (lives : LivesAs configuration run id demand left) (own : heading.actor = other)
    (apart : other ≠ id) : LivesAs configuration (run.follow other heading turn) id demand left where
  lived := by
    rw [about_follow_of_ne own apart]
    exact lives.lived
  waits := fun request waits =>
    lives.waits request (waiting_follow_of_ne apart.symm run heading turn ▸ waits)
  ended := fun answer member =>
    lives.ended answer ((actor_follow own member).resolve_right fun same => apart same.symm)

/-- A request that has not ended lives on in its next stretch. -/
theorem LivesAs.of_follow (lived : Lived configuration id demand (about id run.record ++ heading :: trail id turn)
      (some turn.request)) (own : heading.actor = id) (going : ∀ answer, heading ≠ .ended id answer)
    (unended : ∀ answer, .ended id answer ∉ run.record) :
    LivesAs configuration (run.follow id heading turn) id demand (some turn.request) where
  lived := by
    rw [about_follow own]
    exact lived
  waits := by
    intro waiting waits
    rw [waiting_follow] at waits
    cases finished : turn.request <;> rw [finished] at waits <;> cases waits <;> rfl
  ended := by
    intro answer member
    rcases ended_mem_follow (going answer) member with early | ⟨-, ends⟩
    · exact (unended answer early).elim
    · exact congrArg some ends

/-- A request that has ended does not wait. -/
theorem LivesAs.unended (lives : LivesAs configuration run id demand (some request)) {call : Call}
    (calls : request.call? = some call) (answer : Answer) : .ended id answer ∉ run.record := by
  intro member
  cases lives.ended answer member
  cases calls

/-- After it has been dropped, nothing is left of a request. -/
theorem LivesAs.abandon (lives : LivesAs configuration run id demand (some request)) {call : Call}
    (calls : request.call? = some call) : LivesAs configuration (run.abandon id request) id demand none where
  lived := by
    rw [Run.abandon, about, List.filter_append, ← about]
    simpa [Entry.actor] using lives.lived.dropped
  waits := by simp
  ended := by
    intro answer member
    simp [Run.abandon, lives.unended calls] at member

theorem LivesAs.abandon_other (lives : LivesAs configuration run id demand left) (apart : other ≠ id) :
    LivesAs configuration (run.abandon other request) id demand left where
  lived := by
    rw [about_abandon_of_ne apart]
    exact lives.lived
  waits := fun waiting waits => lives.waits waiting (waiting_abandon_of_ne apart.symm run request ▸ waits)
  ended := by
    intro answer member
    exact lives.ended answer (by simpa [Run.abandon] using member)

end LivesAs

theorem exists_call_of_waiting (configuration : Configuration) (actions : List Action) {request : Request}
    (waits : (after configuration actions).waiting id = some request) : ∃ call, request.call? = some call := by
  refine after_induction (motive := fun run => ∀ request, run.waiting id = some request →
    ∃ call, request.call? = some call) (fun _ waits => by cases waits) ?_ actions request waits
  intro run action next calls advances request waits
  cases advances with
  | begin | reply =>
    rcases follow_waiting waits with ⟨-, own⟩ | ⟨-, old⟩
    · exact Request.call?_of_remaining own
    · exact calls request old
  | @drop other =>
    by_cases same : id = other
    · simp [same] at waits
    · exact calls request (waiting_abandon_of_ne same run _ ▸ waits)

/-- What a request keeps up from its beginning on, in its own steps and in those of others, it keeps up as
long as it lives. -/
theorem lives_along {motive : List Action → Option Request → Prop}
    (begins : ∀ actions, id ∉ names (after configuration actions).record →
      motive (actions ++ [.begin id demand]) (some (demand.start (after configuration actions).workspace).request))
    (resumes : ∀ actions request call surroundings reply, motive actions (some request) →
      .began id demand ∈ (after configuration actions).record →
      (after configuration actions).waiting id = some request → request.call? = some call →
      reply.fits call = true → motive (actions ++ [.reply id surroundings reply])
        (some (request.resume surroundings (after configuration actions).workspace reply).request))
    (drops : ∀ actions request, motive actions (some request) → motive (actions ++ [.drop id]) none)
    (others : ∀ actions action left, motive actions left →
      about id (after configuration (actions ++ [action])).record = about id (after configuration actions).record →
      motive (actions ++ [action]) left)
    (actions : List Action) (began : .began id demand ∈ (after configuration actions).record) :
    ∃ left, LivesAs configuration (after configuration actions) id demand left ∧ motive actions left := by
  induction actions using List.reverseRecOn with
  | nil => cases began
  | append_singleton actions action ih =>
    have ordered := ordered_after configuration actions
    have attributed := actor_mem_names configuration actions
    have once := (ordered_after configuration (actions ++ [action])).once
    have waiting {other : ℕ} {request : Request}
        (waits : (after configuration actions).waiting other = some request) :=
      exists_call_of_waiting configuration actions waits
    have begins := begins actions
    have resumes := resumes actions
    have others := others actions action
    rw [after_concat] at began once others ⊢
    generalize after configuration actions = run at *
    rcases step_eq_or_advances run action with same | advances
    · rw [same] at began others ⊢
      obtain ⟨left, lives, kept⟩ := ih began
      exact ⟨left, lives, others left kept rfl⟩
    generalize run.step action = next at *
    -- the demand of a request that waits is that with which it began
    have alive {other : ℕ} {request : Request} (same : other = id) (waits : run.waiting other = some request)
        (grows : run.record ⊆ next.record) : .began id demand ∈ run.record ∧
          LivesAs configuration run id demand (some request) ∧ motive actions (some request) := by
      subst same
      obtain ⟨demand', began', -⟩ := ordered.begun other request waits
      obtain rfl := began_unique once began (grows began')
      obtain ⟨left, lives, kept⟩ := ih began'
      obtain rfl := lives.waits request waits
      exact ⟨began', lives, kept⟩
    cases advances with
    | @begin other own fresh =>
      by_cases same : other = id
      · subst same
        obtain rfl := began_unique once began (List.mem_append_right _ (List.mem_cons_self ..))
        -- nothing was known of the request before
        have idle : ∀ entry ∈ run.record, entry.actor ≠ other := fun entry member same =>
          fresh (same ▸ attributed entry member)
        refine ⟨_, .of_follow ?_ rfl (fun _ => nofun) fun answer member => idle _ member rfl, begins fresh⟩
        rw [about, List.filter_eq_nil_iff.mpr (by simpa using idle), List.nil_append]
        exact .begun ordered.configured (demand.starts run.workspace)
      · obtain ⟨left, lives, kept⟩ := ih ((actor_follow rfl began).resolve_right (Ne.symm same))
        exact ⟨left, lives.follow_other rfl same, others left kept (about_follow_of_ne rfl same)⟩
    | @reply other request call surroundings reply waits calls fits =>
      by_cases same : other = id
      · obtain ⟨began', lives, kept⟩ := alive same waits (List.subset_append_left ..)
        subst same
        refine ⟨_, .of_follow ?_ rfl (fun _ => nofun) (lives.unended calls),
          resumes request call surroundings reply kept began' waits calls fits⟩
        exact .resumed ordered.configured lives.lived calls (Request.continues calls fits)
      · obtain ⟨left, lives, kept⟩ := ih ((actor_follow rfl began).resolve_right (Ne.symm same))
        exact ⟨left, lives.follow_other rfl same, others left kept (about_follow_of_ne rfl same)⟩
    | @drop other request waits =>
      by_cases same : other = id
      · obtain ⟨-, lives, kept⟩ := alive same waits (List.subset_append_left ..)
        subst same
        obtain ⟨call, calls⟩ := waiting waits
        exact ⟨none, lives.abandon calls, drops actions request kept⟩
      · obtain ⟨left, lives, kept⟩ := ih (by simpa [Run.abandon] using began)
        exact ⟨left, lives.abandon_other same, others left kept (about_abandon_of_ne same)⟩

/-- Each request of a run has lived in it. -/
theorem lives_after (configuration : Configuration) (actions : List Action)
    (began : .began id demand ∈ (after configuration actions).record) :
    ∃ left, LivesAs configuration (after configuration actions) id demand left := by
  obtain ⟨left, lives, -⟩ := lives_along (motive := fun _ _ => True) (fun _ _ => trivial)
    (fun _ _ _ _ _ _ _ _ _ _ => trivial) (fun _ _ _ => trivial) (fun _ _ _ _ _ => trivial) actions began
  exact ⟨left, lives⟩

end Run
end TypedJson
