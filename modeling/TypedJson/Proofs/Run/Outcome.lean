import TypedJson.Proofs.Run.Delivery
import TypedJson.Proofs.Run.Lived
import Mathlib.Data.List.DropRight

/-! # Outcomes and what was done

A validation ends in one of five ways, and each leaves a trace of its own. `Accounts` lists the traces by
outcome, and `Underway` says what a validation has done while it waits. A validation that removes its
artifact has already settled its account, since the removal is the last thing it does.
-/

namespace TypedJson

open Run (deeds deeds_append deeds_stretch)

namespace Event

/-- The host is given diagnostics to show. -/
def publishes : Event → Bool
  | published _ _ => true
  | _ => false

/-- The host is told an error. -/
def notifies : Event → Bool
  | notified _ => true
  | _ => false

/-- A file is removed. -/
def removes : Event → Bool
  | called (.remove _) => true
  | _ => false

end Event

/-- The calls after a publication: in checker mode the artifact is removed. -/
def Mode.cleanUp (configuration : Configuration) (document : Document) : Mode → List Call
  | .checker => [.remove (Artifact.pathFor document.id configuration.artifactFileName)]
  | .matcher => []

/-- What a validation does until its end, by its outcome. -/
inductive Accounts (configuration : Configuration) (mode : Mode) (document : Document) :
    Outcome → List Event → Prop
  | skipped : Accounts configuration mode document .skipped []
  | untagged : Accounts configuration mode document .untagged []
  | superseded {calls : List Call} (keeps : ∀ path, .remove path ∉ calls) :
      Accounts configuration mode document .superseded (calls.map .called)
  | failed (calls : List Call) (message? : Option String) (after : List Call) :
      Accounts configuration mode document .failed
        (calls.map .called ++ (message?.toList.map .notified ++ after.map .called))
  | published (calls : List Call) (messages : List String) (diagnostics : List Diagnostic) :
      Accounts configuration mode document (.published diagnostics.length messages.length)
        (calls.map .called ++ messages.map .notified ++
          .published document.id diagnostics :: (mode.cleanUp configuration document).map .called)

/-- What a validation has done, and what is left of it: it has only made calls, or its account is settled. -/
inductive Underway (configuration : Configuration) (mode : Mode) (document : Document) :
    List Event → Request → Prop
  | calling (calls : List Call) {request : Request} (keeps : ∀ path, .remove path ∉ calls)
      (aims : request.aim? = some (Demand.validate mode document).purpose?) :
      Underway configuration mode document (calls.map .called) request
  | removing {staged : Staged} {outcome : Outcome} {events : List Event} (settled : outcome ≠ .superseded)
      (accounts : Accounts configuration mode document outcome events) :
      Underway configuration mode document events (.removing staged (.outcome outcome))
  | finished {outcome : Outcome} {events : List Event}
      (accounts : Accounts configuration mode document outcome events) :
      Underway configuration mode document events (.finished (.outcome outcome))

section Underway

variable {configuration : Configuration} {workspace : Workspace} {surroundings : Surroundings} {mode : Mode}
  {document : Document} {events : List Event} {request : Request} {reply : Reply} {turn : Turn}

/-- A validation begins with a call, or ends at once. -/
theorem Starts.underway (starts : Starts workspace (.validate mode document) turn) :
    Underway configuration mode document turn.events turn.request := by
  cases starts with
  | aside =>
    simp only [Turn.finish, Demand.declined]
    split
    · exact .finished .untagged
    · exact .finished .skipped
  | @malformed _ _ _ _ fault => exact .finished (.failed [] (some _) [])
  | @write _ _ staged purpose _ purposed =>
    exact .calling [.write _ _] (by simp) (congrArg some purposed.symm)
  | resolve => exact .calling [.resolve _ _] (by simp) rfl

/-- A validation that has only made calls makes another one, or settles its account. -/
theorem Continues.underway_of_calling {calls : List Call}
    (continues : Continues surroundings workspace request reply turn)
    (keeps : ∀ path, .remove path ∉ calls)
    (aims : request.aim? = some (Demand.validate mode document).purpose?)
    (serves : request.Serves configuration (.validate mode document)) :
    Underway configuration mode document (calls.map .called ++ turn.events) turn.request := by
  have silent {outcome : Outcome} (accounts : Accounts configuration mode document outcome (calls.map .called)) :
      Underway configuration mode document (calls.map .called ++ []) (.finished (.outcome outcome)) := by
    rw [List.append_nil]
    exact .finished accounts
  have failed (message? : Option String) (after : List Call) : Accounts configuration mode document .failed
      (calls.map .called ++ (message?.toList.map .notified ++ after.map .called)) := .failed ..
  cases continues with
  | @unwritten staged purpose =>
    cases mode <;> cases aims
    exact silent (by simpa using failed none [])
  | @overtaken staged purpose =>
    cases mode <;> cases aims
    exact silent (.superseded keeps)
  | @check staged =>
    have called : Underway configuration mode document
        ((calls ++ [Call.check [staged.artifact.path]]).map .called) (.checking staged) :=
      .calling _ (by simpa using keeps) aims
    simpa [Turn.await, Request.call?] using called
  | look => cases mode <;> cases aims
  | index before =>
    rcases before with ⟨rfl, -⟩ | ⟨step, rfl⟩ <;> cases mode <;> cases aims
  | unchecked => exact .removing (by simp) (failed (some _) [.remove _])
  | uncheckedStale | unresolvedStale => exact silent (by simpa using failed none [])
  | checkedStale | resolvedStale => exact silent (.superseded keeps)
  | @checked staged findings remapping =>
    cases mode with
    | matcher => cases aims
    | checker =>
      have served := serves.staged staged rfl
      have told : staged.document = document := served.document
      have path : staged.artifact.path = Artifact.pathFor document.id configuration.artifactFileName := by
        rw [served.artifact]
        rfl
      have accounts : Accounts configuration .checker document _ _ :=
        .published calls remapping.declarationErrors remapping.diagnostics
      refine .removing (by simp) ?_
      simpa [Turn.await, Staged.publication, Request.call?, Mode.cleanUp, path, told] using accounts
  | unresolved => exact .finished (by simpa [Turn.finish] using failed (some _) [])
  | @resolved staged value type diagnostics =>
    cases mode with
    | checker => cases aims
    | matcher =>
      have told : staged.document = document := (serves.staged staged rfl).document
      have accounts : Accounts configuration .matcher document _ _ := .published calls [] diagnostics
      refine .finished ?_
      simpa [Turn.finish, Mode.cleanUp, told] using accounts
  | suggested | looked => cases mode <;> cases aims
  | removed | answered => cases aims

/-- Along its life a validation is underway or has ended. -/
theorem Lived.underway {id : ℕ} {entries : List Run.Entry} {left : Option Request}
    (lived : Lived configuration id (.validate mode document) entries left) :
    ∀ request ∈ left, Underway configuration mode document (deeds id entries) request := by
  induction lived with
  | @begun workspace turn configured starts =>
    rintro request ⟨⟩
    rw [deeds_stretch rfl]
    exact configured ▸ starts.underway
  | @resumed workspace surroundings entries before call reply turn configured lived calls continues ih =>
    rintro request ⟨⟩
    rw [deeds_append, deeds_stretch rfl]
    have underway := ih before rfl
    generalize deeds id entries = done at underway ⊢
    cases underway with
    | calling earlier keeps aims =>
      exact continues.underway_of_calling keeps aims (lived.serves _ rfl (Request.remaining_of_call? calls))
    | removing settled accounts =>
      cases continues with
      | index before => rcases before with ⟨other, -⟩ | ⟨step, other⟩ <;> cases other
      | removed =>
        simpa [Turn.finish] using Underway.finished accounts
    | finished => cases calls
  | dropped => rintro request ⟨⟩

/-- When a validation has ended, its account is that of its outcome. -/
theorem Underway.accounts {answer : Answer}
    (underway : Underway configuration mode document events (.finished answer)) :
    ∃ outcome, answer = .outcome outcome ∧ Accounts configuration mode document outcome events := by
  cases underway with
  | calling _ _ aims => cases aims
  | finished accounts => exact ⟨_, rfl, accounts⟩

/-- A validation that removes its artifact does not end superseded after that. -/
theorem Underway.settled {staged : Staged} {outcome : Outcome}
    (underway : Underway configuration mode document events (.removing staged (.outcome outcome))) :
    outcome ≠ .superseded := by
  cases underway with
  | calling _ _ aims => cases aims
  | removing settled => exact settled

end Underway

/-- A request has published once, and that for a document: so many diagnostics, directly after so many
errors. In checker mode it has removed the artifact once after that. -/
def Delivers (configuration : Configuration) (mode : Mode) (document : Document) (diagnostics errors : ℕ)
    (done : List Event) : Prop :=
  ∃ before told after, done = before ++ .published document.id told :: after ∧
    (∀ event ∈ before ++ after, event.publishes = false) ∧ told.length = diagnostics ∧
    (before.rtakeWhile Event.notifies).length = errors ∧
    (mode = .checker → after.filter Event.removes =
      [.called (.remove (Artifact.pathFor document.id configuration.artifactFileName))])

section Accounts

variable {configuration : Configuration} {mode : Mode} {document : Document} {outcome : Outcome}
  {done : List Event} {diagnostics errors : ℕ}

/-- A single publication parts what was done in one way. -/
theorem Delivers.unique {diagnostics' errors' : ℕ}
    (first : Delivers configuration mode document diagnostics errors done)
    (second : Delivers configuration mode document diagnostics' errors' done) :
    diagnostics = diagnostics' ∧ errors = errors' := by
  obtain ⟨before, told, after, rfl, silent, rfl, rfl, -⟩ := first
  obtain ⟨before', told', after', split, -, rfl, rfl, -⟩ := second
  have apart : ∀ event ∈ before ++ after, event ≠ .published document.id told' := by
    rintro event member rfl
    exact Bool.false_ne_true (silent _ member).symm
  rcases List.append_eq_append_iff.mp split with ⟨gap, rfl, tail⟩ | ⟨gap, rfl, tail⟩
  all_goals
    cases gap with
    | nil =>
      obtain ⟨same, -⟩ := List.cons.inj tail
      cases same
      simp
    | cons head gap =>
      obtain ⟨rfl, rfl⟩ := List.cons.inj tail
      exact (apart (.published document.id told') (by simp) rfl).elim

/-- After calls, what is told last is all that is told. -/
theorem Event.rtakeWhile_notifies (calls : List Call) (messages : List String) :
    (calls.map called ++ messages.map notified).rtakeWhile notifies = messages.map notified := by
  have calling : (calls.map called).reverse.takeWhile notifies = [] := by
    rw [← List.map_reverse]
    cases calls.reverse <;> rfl
  rw [List.rtakeWhile, List.reverse_append, List.takeWhile_append_of_pos, calling, List.append_nil,
    List.reverse_reverse]
  simp [notifies]

/-- A validation that ends published has delivered what its outcome says. -/
theorem Accounts.delivers
    (accounts : Accounts configuration mode document (.published diagnostics errors) done) :
    Delivers configuration mode document diagnostics errors done := by
  generalize named : Outcome.published diagnostics errors = outcome at accounts
  cases accounts with
  | published calls messages diagnostics =>
    cases named
    refine ⟨_, diagnostics, _, rfl, ?_, rfl, ?_, ?_⟩
    · simp only [List.mem_append, List.mem_map]
      rintro _ ((⟨call, -, rfl⟩ | ⟨message, -, rfl⟩) | ⟨call, -, rfl⟩) <;> rfl
    · rw [Event.rtakeWhile_notifies, List.length_map]
    · rintro rfl
      rfl
  | _ => cases named

/-- A validation has delivered so much exactly if its outcome says so. -/
theorem Accounts.eq_published_iff (accounts : Accounts configuration mode document outcome done) :
    outcome = .published diagnostics errors ↔ Delivers configuration mode document diagnostics errors done := by
  constructor
  · rintro rfl
    exact accounts.delivers
  · intro delivers
    obtain ⟨before, told, after, split, -⟩ := id delivers
    have published : Event.published document.id told ∈ done := by simp [split]
    cases accounts with
    | skipped | untagged => cases published
    | superseded => simp at published
    | failed => simp at published
    | published =>
      obtain ⟨rfl, rfl⟩ := delivers.unique (Accounts.published ..).delivers
      rfl

/-- A failed validation has published nothing and has told at most one error. -/
theorem Accounts.failed_quiet (accounts : Accounts configuration mode document .failed done) :
    (∀ event ∈ done, event.publishes = false) ∧ (done.filter Event.notifies).length ≤ 1 := by
  cases accounts with
  | failed calls message? after =>
    have calling (calls : List Call) : (calls.map Event.called).filter Event.notifies = [] := by
      simp [Event.notifies]
    constructor
    · simp only [List.mem_append, List.mem_map]
      rintro _ (⟨call, -, rfl⟩ | ⟨message, -, rfl⟩ | ⟨call, -, rfl⟩) <;> rfl
    · rw [List.filter_append, List.filter_append, calling, calling]
      cases message? with
      | none => exact Nat.zero_le 1
      | some message => exact Nat.le_refl 1

/-- A validation of a document that is untagged or no JSON has done nothing. -/
theorem Accounts.idle (accounts : Accounts configuration mode document outcome done)
    (idle : outcome = .untagged ∨ outcome = .skipped) : done = [] := by
  cases accounts with
  | skipped | untagged => rfl
  | superseded | failed | published => rcases idle with idle | idle <;> cases idle

/-- A superseded validation has told the host nothing and removed nothing. -/
theorem Accounts.superseded_quiet (accounts : Accounts configuration mode document .superseded done) :
    ∀ event ∈ done, event.publishes = false ∧ event.notifies = false ∧ event.removes = false := by
  cases accounts with
  | superseded keeps =>
    intro event member
    obtain ⟨call, called, rfl⟩ := List.mem_map.mp member
    refine ⟨rfl, rfl, ?_⟩
    cases call with
    | remove path => exact (keeps path called).elim
    | _ => rfl

end Accounts

/-- A request begins in a lane as its newest, so it does not end superseded at once. -/
theorem Starts.not_superseded {workspace : Workspace} {demand : Demand} {turn : Turn}
    (starts : Starts workspace demand turn) : turn.request ≠ .finished (.outcome .superseded) := by
  cases starts with
  | @aside demand =>
    cases demand with
    | validate mode document =>
      simp only [Turn.finish, Demand.declined]
      split <;> simp
    | complete | hover => simp [Turn.finish, Demand.declined]
  | ask | malformed | write | resolve => simp [Turn.finish, Turn.await]

/-- A request that ends superseded had lost its lane, unless that was settled before. -/
theorem Continues.stale_of_superseded {surroundings : Surroundings} {workspace : Workspace}
    {request : Request} {reply : Reply} {turn : Turn}
    (continues : Continues surroundings workspace request reply turn)
    (ends : turn.request = .finished (.outcome .superseded)) :
    (∃ staged, request.staged? = some staged ∧ workspace.isCurrent staged = false) ∨
      ∃ staged, request = .removing staged (.outcome .superseded) := by
  cases continues with
  | overtaken stale | checkedStale stale | resolvedStale stale => exact .inl ⟨_, rfl, stale⟩
  | @unwritten staged purpose => cases purpose <;> cases ends
  | check | look | unchecked | uncheckedStale | checked | unresolved | unresolvedStale | resolved | answered =>
    cases ends
  | index =>
    simp only [Workspace.afterIndexing] at ends
    split at ends <;> cases ends
  | suggested | looked =>
    simp only [Workspace.cleanUp] at ends
    split at ends <;> cases ends
  | removed => exact .inr ⟨_, by cases ends; rfl⟩

namespace Run

variable {configuration : Configuration} {run : Run} {record : List Entry} {id : ℕ} {mode : Mode}
  {document : Document}

/-- A validation that ends superseded had been overtaken in its lane before that. -/
theorem overtaken_of_superseded (configuration : Configuration) (actions : List Action)
    (began : .began id (.validate mode document) ∈ (after configuration actions).record)
    (ended : .ended id (.outcome .superseded) ∈ (after configuration actions).record) :
    ∃ lane, (Demand.validate mode document).lane? configuration = some lane ∧
      Overtaken configuration id lane (after configuration actions).record ∧
      ∀ past future, (after configuration actions).record = past ++ .ended id (.outcome .superseded) :: future →
        newest? configuration lane past ≠ some id := by
  have once := (ordered_after configuration actions).once
  obtain ⟨before, action, rest, rfl, advances, new, present⟩ := exists_advances_of_mem ended
  have ordered := ordered_after configuration before
  obtain ⟨more, grows⟩ := record_prefix configuration before (action :: rest)
  rw [← grows] at once began ended ⊢
  -- the step that ended the request was a reply, and the lane had been lost by then
  obtain ⟨request, staged, waits, works, stale⟩ : ∃ request staged,
      (after configuration before).waiting id = some request ∧ request.staged? = some staged ∧
        (after configuration before).workspace.isCurrent staged = false := by
    generalize after configuration (before ++ [action]) = next at advances present
    cases advances with
    | begin =>
      rcases ended_mem_follow (by simp) present with early | ⟨-, ends⟩
      · exact (new early).elim
      · exact ((Demand.starts _ _).not_superseded ends).elim
    | @reply _ request _ _ _ waits calls fits =>
      rcases ended_mem_follow (by simp) present with early | ⟨rfl, ends⟩
      · exact (new early).elim
      rcases (Request.continues calls fits).stale_of_superseded ends with ⟨staged, works, stale⟩ | ⟨staged, rfl⟩
      · exact ⟨request, staged, waits, works, stale⟩
      · obtain ⟨demand, began', -⟩ := ordered.begun _ _ waits
        obtain rfl := began_unique once began (List.mem_append_left _ began')
        obtain ⟨left, lives⟩ := lives_after configuration before began'
        obtain rfl := lives.waits _ waits
        exact ((lives.lived.underway _ rfl).settled rfl).elim
    | drop => exact (new (by simpa [abandon] using present)).elim
  obtain ⟨demand, began', serves⟩ := ordered.begun id request waits
  obtain rfl := began_unique once began (List.mem_append_left _ began')
  have laned := (serves.staged staged works).lane
  have lost : newest? configuration staged.lane (after configuration before).record ≠ some id := fun newest =>
    Bool.false_ne_true (stale.symm.trans ((ordered.current id request staged waits works).mpr newest))
  refine ⟨staged.lane, laned, ?_, ?_⟩
  · obtain ⟨past, future, split⟩ := List.append_of_mem began'
    obtain ⟨front, other, newer, back, rfl, entered⟩ := entered_of_newest?_ne split laned lost
    refine ⟨past, .validate mode document, front, other, newer, back ++ more, by simp [split], entered, ?_⟩
    rw [split] at new ended
    have late : .ended id (.outcome .superseded) ∈ more := (List.mem_append.mp ended).resolve_left new
    exact List.mem_append_right _ late
  · intro past future split
    -- the end comes after the loss of the lane
    obtain ⟨gap, rfl, -⟩ : ∃ gap, past = (after configuration before).record ++ gap ∧
        more = gap ++ .ended id (.outcome .superseded) :: future := by
      rcases List.append_eq_append_iff.mp split with ⟨gap, rfl, tail⟩ | ⟨gap, same, tail⟩
      · exact ⟨gap, rfl, tail⟩
      · cases gap with
        | nil => exact ⟨[], by simpa using same.symm, by simpa using tail.symm⟩
        | cons head gap =>
          obtain ⟨rfl, -⟩ := List.cons.inj tail
          exact (new (by simp [same])).elim
    refine newest?_ne_append ?_ (mem_names_iff.mpr ⟨_, began'⟩) lost
    rw [split, names_append] at once
    exact (List.nodup_append.mp once).1

/-- The host shows what it would show without a request that has published nothing. -/
theorem shown?_without {key : List Component} (quiet : ∀ event ∈ deeds id record, event.publishes = false) :
    shown? key (record.filter (·.actor ≠ id)) = shown? key record := by
  rw [shown?, shown?, List.filterMap_filter]
  congr 1
  apply List.filterMap_congr
  intro entry member
  by_cases own : entry.actor = id
  case neg => simp [own]
  case pos =>
    simp only [own, ne_eq, not_true_eq_false, decide_false, Bool.false_eq_true, if_false]
    cases entry with
    | did other event =>
      obtain rfl : other = id := own
      have done : event ∈ deeds other record := List.mem_filterMap.mpr ⟨_, member, if_pos rfl⟩
      cases event with
      | published => exact (Bool.false_ne_true (quiet _ done).symm).elim
      | _ => rfl
    | _ => rfl

/-- In every run a validation that ends has an outcome that tells what it has done. It is published with the
counts that were delivered, and only then. A failed one has published nothing and has told at most one
error, so the host shows what it would show without it. A superseded one has told the host nothing, has
removed nothing, and had lost its lane to a newer request. An untagged or skipped one has done nothing. -/
theorem outcome_agrees_with_deeds (configuration : Configuration) (actions : List Action) {answer : Answer}
    (began : .began id (.validate mode document) ∈ (after configuration actions).record)
    (ended : .ended id answer ∈ (after configuration actions).record) :
    let record := (after configuration actions).record
    let done := deeds id record
    ∃ outcome, answer = .outcome outcome ∧
      (∀ diagnostics errors, outcome = .published diagnostics errors ↔
        Delivers configuration mode document diagnostics errors done) ∧
      (outcome = .failed → (∀ event ∈ done, event.publishes = false) ∧ (done.filter Event.notifies).length ≤ 1 ∧
        ∀ key, shown? key (record.filter (·.actor ≠ id)) = shown? key record) ∧
      (outcome = .superseded →
        (∀ event ∈ done, event.publishes = false ∧ event.notifies = false ∧ event.removes = false) ∧
        ∃ lane, (Demand.validate mode document).lane? configuration = some lane ∧
          Overtaken configuration id lane record ∧
          ∀ past future, record = past ++ .ended id (.outcome .superseded) :: future →
            newest? configuration lane past ≠ some id) ∧
      (outcome = .untagged ∨ outcome = .skipped → done = []) := by
  intro record done
  obtain ⟨left, lives⟩ := lives_after configuration actions began
  obtain rfl := lives.ended answer ended
  obtain ⟨outcome, rfl, accounts⟩ := (lives.lived.underway _ rfl).accounts
  rw [deeds_about] at accounts
  refine ⟨outcome, rfl, fun _ _ => accounts.eq_published_iff, ?_, ?_, ?_⟩
  · rintro rfl
    obtain ⟨silent, few⟩ := accounts.failed_quiet
    exact ⟨silent, few, fun key => shown?_without silent⟩
  · rintro rfl
    exact ⟨accounts.superseded_quiet, overtaken_of_superseded configuration actions began ended⟩
  · intro idle
    exact accounts.idle idle

/-- The checker finds one thing in the header of the artifact and one in the document. -/
def foundTwice : List Action :=
  [.begin 0 (.validate .checker sampleDocument), .reply 0 sampleSurroundings (.finished true),
    .reply 0 sampleSurroundings (.report (.ok
      [⟨some ⟨"temp-validation.ts"⟩, 0, 0, 1, none, "m is not found"⟩,
        ⟨some ⟨"temp-validation.ts"⟩, 2, 0, 1, none, "a member is missing"⟩])),
    .reply 0 sampleSurroundings (.finished true)]

/-- The validation has told one error and then published one diagnostic. One that was overtaken by a hover
ended superseded after the hover had entered its lane. -/
theorem outcome_agrees_with_deeds_found :
    (.ended 0 (.outcome (.published 1 1)) ∈ (after .default foundTwice).record ∧
      Delivers .default .checker sampleDocument 1 1 (deeds 0 (after .default foundTwice).record)) ∧
    ∃ lane, (Demand.validate .checker sampleDocument).lane? .default = some lane ∧
      Overtaken .default 0 lane (after .default (overtakenBy (.hover sampleDocument .start))).record := by
  have ended : .ended 0 (.outcome (.published 1 1)) ∈ (after .default foundTwice).record := by decide +kernel
  have began : .began 0 (.validate .checker sampleDocument) ∈ (after .default foundTwice).record := by
    decide +kernel
  have superseded : .ended 0 (.outcome .superseded) ∈
      (after .default (overtakenBy (.hover sampleDocument .start))).record := by decide +kernel
  have began' : .began 0 (.validate .checker sampleDocument) ∈
      (after .default (overtakenBy (.hover sampleDocument .start))).record := by decide +kernel
  constructor
  · obtain ⟨outcome, same, delivers, -⟩ := outcome_agrees_with_deeds .default foundTwice began ended
    cases same
    exact ⟨ended, (delivers 1 1).mp rfl⟩
  · obtain ⟨outcome, same, -, -, lost, -⟩ :=
      outcome_agrees_with_deeds .default (overtakenBy (.hover sampleDocument .start)) began' superseded
    cases same
    obtain ⟨-, lane, laned, overtaken, -⟩ := lost rfl
    exact ⟨lane, laned, overtaken⟩

end Run
end TypedJson
