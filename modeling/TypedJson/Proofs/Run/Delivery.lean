import TypedJson.Proofs.Run.LatestText

/-! # What becomes of the last validation of a document

A validation that writes the artifact is superseded by whatever else begins in its lane before the
checker has reported: a suggestion or a hover on the document, or a request on a document that shares the
artifact. Otherwise it publishes what the report says. `Progress` follows one validation through a run.
-/

namespace TypedJson

/-- What an event publishes. -/
def Event.publication? : Event → Option (Path × List Diagnostic)
  | .published document diagnostics => some (document, diagnostics)
  | _ => none

/-- What an entry of a record says that a request published. -/
def Run.Entry.publicationOf? (id : ℕ) : Run.Entry → Option (Path × List Diagnostic)
  | .did other event => if other = id then event.publication? else none
  | _ => none

/-- Nobody is dropped and no call fails. -/
def Run.Entry.succeeds : Run.Entry → Bool
  | .dropped _ => false
  | .returned _ _ success => success
  | _ => true

/-- The diagnostics that an entry of a record says were published for a document. -/
def Run.Entry.diagnosticsFor? (key : List Component) : Run.Entry → Option (List Diagnostic)
  | .did _ (.published document diagnostics) => if document.components = key then some diagnostics else none
  | _ => none

namespace Run

variable {configuration : Configuration} {run : Run} {record past future : List Entry} {id : ℕ}

/-- What a request has published, in order. -/
def publications (id : ℕ) (record : List Entry) : List (Path × List Diagnostic) :=
  record.filterMap (Entry.publicationOf? id)

/-- The diagnostics that the host shows for a document: those that were published last. -/
def shown? (key : List Component) (record : List Entry) : Option (List Diagnostic) :=
  (record.filterMap (Entry.diagnosticsFor? key)).getLast?

@[simp] theorem publications_append {more : List Entry} :
    publications id (record ++ more) = publications id record ++ publications id more := List.filterMap_append

theorem mem_publications_iff {document : Path} {diagnostics : List Diagnostic} :
    (document, diagnostics) ∈ publications id record ↔ .did id (.published document diagnostics) ∈ record := by
  simp only [publications, List.mem_filterMap]
  constructor
  · rintro ⟨entry, member, publishes⟩
    unfold Entry.publicationOf? at publishes
    split at publishes
    case h_1 other event =>
      obtain ⟨own, told⟩ := Option.ite_none_right_eq_some.mp publishes
      subst own
      cases event <;> cases told
      exact member
    case h_2 => cases publishes
  · exact fun member => ⟨_, member, by simp [Entry.publicationOf?, Event.publication?]⟩

/-- A stretch adds the publications of its request, and none of any other request. -/
theorem publications_trail {other : ℕ} {turn : Turn} : publications id (trail other turn) =
    if other = id then turn.events.filterMap Event.publication? else [] := by
  have told : publications id (turn.events.map (.did other)) =
      if other = id then turn.events.filterMap Event.publication? else [] := by
    rw [publications, List.filterMap_map]
    by_cases same : other = id <;> simp [Function.comp_def, Entry.publicationOf?, same]
  rw [trail, publications_append, told]
  -- the end of a request is no publication
  cases turn.request <;> exact List.append_nil _

theorem publications_follow {other : ℕ} {heading : Entry} {turn : Turn}
    (silent : heading.publicationOf? id = none) : publications id (run.follow other heading turn).record =
      publications id run.record ++ if other = id then turn.events.filterMap Event.publication? else [] := by
  rw [follow, publications_append, ← publications_trail, publications, publications,
    List.filterMap_cons_none silent, ← publications]
  rfl

/-- What is shown after a publication is that or something published later. -/
theorem shown?_published {document : Path} {diagnostics : List Diagnostic}
    (split : record = past ++ .did id (.published document diagnostics) :: future) :
    shown? document.components record = some diagnostics ∨
      ∃ other again more, .did other (.published again more) ∈ future ∧
        again.components = document.components := by
  cases later : future.filterMap (Entry.diagnosticsFor? document.components) with
  | nil => exact .inl (by simp [shown?, split, Entry.diagnosticsFor?, later])
  | cons more others =>
    have member : more ∈ future.filterMap (Entry.diagnosticsFor? document.components) := by simp [later]
    obtain ⟨entry, present, shows⟩ := List.mem_filterMap.mp member
    unfold Entry.diagnosticsFor? at shows
    split at shows
    case h_1 other again diagnostics' =>
      obtain ⟨same, -⟩ := Option.ite_none_right_eq_some.mp shows
      exact .inr ⟨other, again, diagnostics', present, same⟩
    case h_2 => cases shows

/-- A checker has reported on an artifact to a request that was the newest of its lane then. The remapping
is that of its report. -/
def Reported (configuration : Configuration) (actions : List Action) (id : ℕ) (artifact : Artifact)
    (remapping : Remapping) : Prop :=
  ∃ before surroundings findings rest,
    actions = before ++ .reply id surroundings (.report (.ok findings)) :: rest ∧
    (∃ request, (after configuration before).waiting id = some request ∧
      request.call? = some (.check [artifact.path])) ∧
    newest? configuration ⟨.checker, artifact.path.components⟩ (after configuration before).record = some id ∧
    remapping = .ofFindings artifact surroundings.aliasing configuration.ignoredCodes findings

/-- A request ended superseded after another one had entered its lane. -/
def Overtaken (configuration : Configuration) (id : ℕ) (lane : Lane) (record : List Entry) : Prop :=
  ∃ past own front other demand back,
    record = past ++ .began id own :: front ++ .began other demand :: back ∧
      demand.lane? configuration = some lane ∧ .ended id (.outcome .superseded) ∈ back

/-- How far a validation that writes an artifact has got. -/
inductive Progress (configuration : Configuration) (actions : List Action) (id : ℕ) (document : Path)
    (artifact : Artifact) : Prop
  | writing {staged : Staged}
      (waits : (after configuration actions).waiting id = some (.writing staged .validation))
      (quiet : publications id (after configuration actions).record = [])
  | checking {staged : Staged}
      (waits : (after configuration actions).waiting id = some (.checking staged))
      (quiet : publications id (after configuration actions).record = [])
  | removing {staged : Staged} {remapping : Remapping}
      (waits : (after configuration actions).waiting id = some (.removing staged
        (.outcome (.published remapping.diagnostics.length remapping.declarationErrors.length))))
      (reported : Reported configuration actions id artifact remapping)
      (told : publications id (after configuration actions).record = [(document, remapping.diagnostics)])
  | delivered {remapping : Remapping} (gone : (after configuration actions).waiting id = none)
      (ended : .ended id (.outcome (.published remapping.diagnostics.length
        remapping.declarationErrors.length)) ∈ (after configuration actions).record)
      (reported : Reported configuration actions id artifact remapping)
      (told : publications id (after configuration actions).record = [(document, remapping.diagnostics)])
  | superseded (gone : (after configuration actions).waiting id = none)
      (overtaken : Overtaken configuration id ⟨.checker, artifact.path.components⟩
        (after configuration actions).record)
      (quiet : publications id (after configuration actions).record = [])

section Progress

variable {actions : List Action} {document : Path} {artifact : Artifact} {action : Action}

theorem Reported.concat {remapping : Remapping}
    (reported : Reported configuration actions id artifact remapping) (action : Action) :
    Reported configuration (actions ++ [action]) id artifact remapping := by
  obtain ⟨before, surroundings, findings, rest, rfl, waits, newest, placed⟩ := reported
  exact ⟨before, surroundings, findings, rest ++ [action], by simp, waits, newest, placed⟩

theorem Overtaken.append {lane : Lane} (overtaken : Overtaken configuration id lane record)
    (more : List Entry) : Overtaken configuration id lane (record ++ more) := by
  obtain ⟨past, own, front, other, demand, back, rfl, laned, ended⟩ := overtaken
  exact ⟨past, own, front, other, demand, back ++ more, by simp, laned, List.mem_append_left _ ended⟩

/-- A step of another request changes nothing about a validation. -/
theorem Progress.concat (progress : Progress configuration actions id document artifact)
    (same : (after configuration (actions ++ [action])).waiting id = (after configuration actions).waiting id)
    {more : List Entry}
    (grows : (after configuration (actions ++ [action])).record = (after configuration actions).record ++ more)
    (apart : publications id more = []) :
    Progress configuration (actions ++ [action]) id document artifact := by
  have kept : publications id (after configuration (actions ++ [action])).record =
      publications id (after configuration actions).record := by
    rw [grows, publications_append, apart, List.append_nil]
  cases progress with
  | writing waits quiet => exact .writing (same.trans waits) (kept.trans quiet)
  | checking waits quiet => exact .checking (same.trans waits) (kept.trans quiet)
  | removing waits reported told =>
    exact .removing (same.trans waits) (reported.concat action) (kept.trans told)
  | delivered gone ended reported told =>
    exact .delivered (same.trans gone) (grows ▸ List.mem_append_left _ ended) (reported.concat action)
      (kept.trans told)
  | superseded gone overtaken quiet =>
    exact .superseded (same.trans gone) (grows ▸ overtaken.append more) (kept.trans quiet)

end Progress

section Validation

variable {actions : List Action} {document : Document} {tag : TypeTag} {artifact : Artifact}

/-- A request that has not begun has published nothing. -/
theorem Ordered.publications_of_fresh (ordered : Ordered configuration run) (fresh : id ∉ names run.record) :
    publications id run.record = [] := by
  refine List.filterMap_eq_nil_iff.mpr fun entry member => ?_
  obtain ⟨past, future, split⟩ := List.append_of_mem member
  unfold Entry.publicationOf?
  split
  case h_1 other event =>
    by_cases own : other = id
    case neg => exact if_neg own
    case pos =>
      subst own
      rw [if_pos rfl]
      cases event with
      | published told diagnostics =>
        obtain ⟨demand, -, began, -⟩ := ordered.holder split rfl
        exact (fresh (mem_names_iff.mpr ⟨demand, split ▸ List.mem_append_left _ began⟩)).elim
      | _ => rfl
  case h_2 => rfl

/-- A validation works on the artifact of its document, and in the lane of that artifact. -/
theorem Ordered.staged_of_began (ordered : Ordered configuration run)
    (began : .began id (.validate .checker document) ∈ run.record)
    (tagged : TypeTag.ofText? document.text.toList = some tag)
    (made : artifact = .ofDocument document.id document.text tag configuration.artifactFileName)
    {request : Request} {staged : Staged} (waits : run.waiting id = some request)
    (works : request.staged? = some staged) :
    staged.document = document ∧ staged.artifact = artifact ∧
      staged.lane = ⟨.checker, artifact.path.components⟩ := by
  have serves := (ordered.serves began waits).staged staged works
  obtain rfl : tag = staged.tag := Option.some.inj (tagged.symm.trans serves.tag)
  have same : staged.artifact = artifact := serves.artifact.trans made.symm
  exact ⟨serves.document, same, same ▸ serves.lane_eq serves.mode⟩

/-- A validation of a text that is JSON begins with the write of its artifact. -/
theorem Progress.of_fresh (ordered : Ordered configuration (after configuration actions))
    (fresh : id ∉ names (after configuration actions).record) (json : document.isJson = true)
    (tagged : (TypeTag.ofText? document.text.toList).isSome = true)
    (sound : (Demand.validate .checker document).isMalformed = false) :
    Progress configuration (actions ++ [.begin id (.validate .checker document)]) id document.id artifact := by
  have stepped : after configuration (actions ++ [.begin id (.validate .checker document)]) =
      (after configuration actions).follow id (.began id (.validate .checker document))
        ((Demand.validate .checker document).start (after configuration actions).workspace) := by
    rw [after_concat, step_begin fresh]
  have laned : (Demand.validate .checker document).lane? configuration =
      some ⟨.checker, Demand.keyFor configuration document.id .checker⟩ :=
    Demand.lane?_eq_some_iff.mpr ⟨json, tagged, rfl⟩
  have starts := (Demand.validate .checker document).starts (after configuration actions).workspace
  generalize (Demand.validate .checker document).start (after configuration actions).workspace = turn at *
  rw [← ordered.configured] at laned
  cases starts with
  | aside unlaned =>
    rw [unlaned] at laned
    cases laned
  | malformed draws broken =>
    simp [Demand.isMalformed, Demand.isWellFormed, Demand.document, broken] at sound
  | write draws purposed =>
    cases purposed
    refine .writing (by rw [stepped]; exact Function.update_self ..) ?_
    rw [stepped, publications_follow rfl, ordered.publications_of_fresh fresh]
    simp [Turn.await, Request.call?, Event.publication?]

/-- If a request is not the newest of its lane any more, another one has entered the lane after it. -/
theorem entered_of_newest?_ne {lane : Lane} {own : Demand}
    (split : record = past ++ .began id own :: future) (laned : own.lane? configuration = some lane)
    (stale : newest? configuration lane record ≠ some id) :
    ∃ front other demand back, future = front ++ .began other demand :: back ∧
      demand.lane? configuration = some lane := by
  rw [split, List.append_cons, newest?_append, newest?_began, if_pos laned] at stale
  cases later : newest? configuration lane future with
  | none => simp [later] at stale
  | some other =>
    obtain ⟨demand, entered, laned'⟩ := newest?_mem later
    obtain ⟨front, back, parts⟩ := List.append_of_mem entered
    exact ⟨front, other, demand, back, parts, laned'⟩

/-- A validation goes on, ends superseded, or publishes what the checker has reported. -/
theorem Progress.reply (ordered : Ordered configuration (after configuration actions))
    (began : .began id (.validate .checker document) ∈ (after configuration actions).record)
    (tagged : TypeTag.ofText? document.text.toList = some tag)
    (made : artifact = .ofDocument document.id document.text tag configuration.artifactFileName)
    (progress : Progress configuration actions id document.id artifact) {request : Request} {call : Call}
    {surroundings : Surroundings} {reply : Reply}
    (waits : (after configuration actions).waiting id = some request) (calls : request.call? = some call)
    (fits : reply.fits call = true) (succeeds : reply.succeeds = true) :
    Progress configuration (actions ++ [.reply id surroundings reply]) id document.id artifact := by
  have stepped : after configuration (actions ++ [.reply id surroundings reply]) =
      (after configuration actions).follow id (.returned id call reply.succeeds)
        (request.resume surroundings (after configuration actions).workspace reply) := by
    rw [after_concat, step_reply waits calls fits]
  obtain ⟨past, future, split⟩ := List.append_of_mem began
  have continues : Continues surroundings (after configuration actions).workspace request reply _ :=
    request.continues calls fits
  have configured := ordered.configured
  generalize request.resume surroundings (after configuration actions).workspace reply = turn at *
  have waiting : (after configuration (actions ++ [.reply id surroundings reply])).waiting id =
      remaining turn.request := by
    rw [stepped]
    exact Function.update_self ..
  have told : publications id (after configuration (actions ++ [.reply id surroundings reply])).record =
      publications id (after configuration actions).record ++ turn.events.filterMap Event.publication? := by
    rw [stepped, publications_follow rfl, if_pos rfl]
  have overtaken {staged : Staged} (works : request.staged? = some staged)
      (stale : (after configuration actions).workspace.isCurrent staged = false)
      (ends : turn = .finish (after configuration actions).workspace [] (.outcome .superseded)) :
      Overtaken configuration id ⟨.checker, artifact.path.components⟩
        (after configuration (actions ++ [.reply id surroundings reply])).record := by
    obtain ⟨-, -, own⟩ := ordered.staged_of_began began tagged made waits works
    have laned := ((ordered.serves began waits).staged staged works).lane
    have tickets := ordered.current id request staged waits works
    rw [stale, own] at tickets
    obtain ⟨front, other, demand, back, rfl, entered⟩ :=
      entered_of_newest?_ne split (own ▸ laned) fun newest => Bool.false_ne_true (tickets.mpr newest)
    refine ⟨past, .validate .checker document, front, other, demand,
      back ++ [.returned id call reply.succeeds, .ended id (.outcome .superseded)], ?_, entered, by simp⟩
    rw [stepped, follow, split, ends]
    simp [trail, Turn.finish]
  cases progress with
  | @writing staged waits' quiet =>
    obtain rfl := Option.some.inj (waits.symm.trans waits')
    cases continues with
    | unwritten => cases succeeds
    | overtaken stale =>
      exact .superseded waiting (overtaken rfl stale rfl) (by rw [told, quiet]; rfl)
    | check => exact .checking waiting (by rw [told, quiet]; rfl)
    | index before => rcases before with ⟨other, -⟩ | ⟨_, other⟩ <;> cases other
  | @checking staged waits' quiet =>
    obtain rfl := Option.some.inj (waits.symm.trans waits')
    cases continues with
    | unchecked | uncheckedStale => cases succeeds
    | checkedStale stale =>
      exact .superseded waiting (overtaken rfl stale rfl) (by rw [told, quiet]; rfl)
    | index before => rcases before with ⟨other, -⟩ | ⟨_, other⟩ <;> cases other
    | @checked _ findings remapping current placed =>
      obtain ⟨same, same', own⟩ := ordered.staged_of_began began tagged made waits rfl
      refine .removing waiting ⟨actions, surroundings, findings, [], rfl, ⟨_, waits, ?_⟩, ?_, ?_⟩ ?_
      · rw [← same']
        rfl
      · rw [← own]
        exact (ordered.current id _ staged waits rfl).mp current
      · rw [placed, configured, ← same']
        rfl
      · rw [told, quiet, ← same]
        simp [Turn.await, Staged.publication, Request.call?, Event.publication?, List.filterMap_map,
          Function.comp_def]
  | removing waits' reported published =>
    obtain rfl := Option.some.inj (waits.symm.trans waits')
    cases continues with
    | index before => rcases before with ⟨other, -⟩ | ⟨_, other⟩ <;> cases other
    | removed =>
      refine .delivered waiting ?_ (reported.concat _) (by rw [told, published]; rfl)
      rw [stepped, follow]
      simp [trail, Turn.finish]
  | delivered gone => simp [gone] at waits
  | superseded gone => simp [gone] at waits

/-- In every run a validation whose calls succeed is at one of the stages of its progress. -/
theorem progress_after (configuration : Configuration) (actions : List Action)
    (began : .began id (.validate .checker document) ∈ (after configuration actions).record)
    (json : document.isJson = true) (tagged : TypeTag.ofText? document.text.toList = some tag)
    (sound : (Demand.validate .checker document).isMalformed = false)
    (made : artifact = .ofDocument document.id document.text tag configuration.artifactFileName)
    (kept : .dropped id ∉ (after configuration actions).record)
    (succeeds : ∀ call success, .returned id call success ∈ (after configuration actions).record →
      success = true) : Progress configuration actions id document.id artifact := by
  induction actions using List.reverseRecOn with
  | nil => cases began
  | append_singleton actions action ih =>
    have ordered := ordered_after configuration actions
    have once := (ordered_after configuration (actions ++ [action])).once
    have stepped := step_eq_or_advances (after configuration actions) action
    rw [← after_concat] at stepped
    generalize named : after configuration (actions ++ [action]) = next at *
    -- what is not of the request itself adds nothing about it to the record
    have others {more : List Entry} (grows : next.record = (after configuration actions).record ++ more)
        (apart : publications id more = []) (unopened : .began id (.validate .checker document) ∉ more)
        (same : next.waiting id = (after configuration actions).waiting id) :
        Progress configuration (actions ++ [action]) id document.id artifact := by
      rw [grows] at began kept succeeds
      refine (ih ((List.mem_append.mp began).resolve_right unopened)
        (fun dropped => kept (List.mem_append_left _ dropped))
        fun call success returned => succeeds call success (List.mem_append_left _ returned)).concat
          (by rw [named, same]) (by rw [named, grows]) apart
    have unopened {other : ℕ} {turn : Turn} : .began id (.validate .checker document) ∉ trail other turn := by
      intro member
      have opened : id ∈ names (trail other turn) := mem_names_iff.mpr ⟨_, member⟩
      simp at opened
    rcases stepped with rfl | advances
    · exact others (List.append_nil _).symm rfl List.not_mem_nil rfl
    cases advances with
    | @begin other demand fresh =>
      by_cases own : other = id
      · subst own
        obtain rfl := began_unique once began (List.mem_append_right _ (List.mem_cons_self ..))
        exact .of_fresh ordered fresh json (by simp [tagged]) sound
      · refine others rfl ?_ ?_ (Function.update_of_ne (Ne.symm own) ..)
        · rw [publications, List.filterMap_cons_none rfl, ← publications, publications_trail, if_neg own]
        · simp [unopened, Ne.symm own]
    | @reply other request call surroundings reply waits calls fits =>
      by_cases own : other = id
      · subst own
        have began' : .began other (.validate .checker document) ∈ (after configuration actions).record := by
          rcases List.mem_append.mp began with early | late
          · exact early
          · rcases List.mem_cons.mp late with heading | member
            · cases heading
            · exact (unopened member).elim
        refine Progress.reply ordered began' tagged made (ih began' ?_ ?_) waits calls fits ?_
        · exact fun dropped => kept (List.mem_append_left _ dropped)
        · exact fun call success returned => succeeds call success (List.mem_append_left _ returned)
        · exact succeeds call _ (List.mem_append_right _ (List.mem_cons_self ..))
      · refine others rfl ?_ (by simp [unopened]) (Function.update_of_ne (Ne.symm own) ..)
        rw [publications, List.filterMap_cons_none rfl, ← publications, publications_trail, if_neg own]
    | @drop other request waits =>
      by_cases own : other = id
      · subst own
        exact (kept (List.mem_append_right _ (List.mem_cons_self ..))).elim
      · exact others rfl rfl (by simp) (Function.update_of_ne (Ne.symm own) ..)

/-- What comes after a guarded event of a request comes after the beginning of the request. -/
theorem Ordered.since_subset (ordered : Ordered configuration run) {own : Demand} {upto since : List Entry}
    {event : Event} (split : run.record = past ++ .began id own :: future)
    (acts : run.record = upto ++ .did id event :: since) (guarded : event.isGuarded = true) :
    since ⊆ future := by
  obtain ⟨demand, -, began, -⟩ := ordered.holder acts guarded
  obtain ⟨front, back, rfl⟩ := List.append_of_mem began
  have whole : run.record = front ++ .began id demand :: (back ++ .did id event :: since) := by simp [acts]
  obtain ⟨-, -, rfl⟩ := split_unique ordered.once split whole
  exact fun entry member => List.mem_append_right _ (List.mem_cons_of_mem _ member)

/-- After the last validation of a document in checker mode has published, only an older validation in the
other mode can still publish for the document. -/
theorem Ordered.shown?_delivered (ordered : Ordered configuration run)
    {lane : Lane} {diagnostics : List Diagnostic}
    (split : run.record = past ++ .began id (.validate .checker document) :: future)
    (laned : (Demand.validate .checker document).lane? configuration = some lane)
    (last : ∀ other mode newer, .began other (.validate mode newer) ∈ future →
      newer.id.components ≠ document.id.components)
    (told : publications id run.record = [(document.id, diagnostics)]) :
    shown? document.id.components run.record = some diagnostics ∨
      ∃ upto since older former more,
        run.record = upto ++ .did id (.published document.id diagnostics) :: since ∧
        .began older (.validate .matcher former) ∈ past ∧ former.id.components = document.id.components ∧
        .did older (.published former.id more) ∈ since := by
  have published : .did id (.published document.id diagnostics) ∈ run.record :=
    mem_publications_iff.mp (told ▸ List.mem_singleton_self _)
  obtain ⟨upto, since, acts⟩ := List.append_of_mem published
  refine (shown?_published acts).imp_right ?_
  rintro ⟨other, again, more, member, same⟩
  have later : .did other (.published again more) ∈ future := ordered.since_subset split acts rfl member
  obtain ⟨front, back, parts⟩ := List.append_of_mem member
  have parted : run.record = upto ++ .did id (.published document.id diagnostics) :: front ++
      .did other (.published again more) :: back := by simp [acts, parts]
  obtain ⟨demand, _, began, -, -, concerns⟩ := ordered.holder parted rfl
  obtain ⟨mode, former, rfl, rfl⟩ := concerns.publishes again more rfl
  have apart : other ≠ id := by
    rintro rfl
    have twice := told
    rw [acts, parts, publications_append, ← List.singleton_append, publications_append, publications_append,
      ← List.singleton_append, publications_append] at twice
    have total := congrArg List.length twice
    simp [publications, Entry.publicationOf?, Event.publication?] at total
    omega
  have present : .began other (.validate mode former) ∈ run.record := parted ▸ List.mem_append_left _ began
  rw [split] at present
  rcases List.mem_append.mp present with earlier | newer
  · cases mode with
    | matcher => exact ⟨upto, since, other, former, more, acts, earlier, same, member⟩
    | checker =>
      -- an older validation in checker mode shares the lane and has been silenced
      exact (ordered.overtaken split laned earlier
        (fun lane' laned' => Demand.lane?_validate_unique same laned' laned) rfl later).elim
  · rcases List.mem_cons.mp newer with own | newer
    · exact (apart (Entry.began.inj own).1).elim
    · exact (last other mode former newer same).elim

end Validation

/-- A validation in checker mode, whose calls succeed and which is the last validation of its document, in
the end has done one of two things. It has published the remapping of its own report, which then is what
the host shows unless an older validation in the other mode publishes after it; its lane was its own until
the report. Or it ended superseded by another request that entered its lane. -/
theorem last_validation_delivered_or_overtaken (configuration : Configuration) (actions : List Action)
    {past future : List Entry} {id : ℕ} {document : Document} {tag : TypeTag}
    (split : (after configuration actions).record =
      past ++ .began id (.validate .checker document) :: future)
    (json : document.isJson = true) (tagged : TypeTag.ofText? document.text.toList = some tag)
    (sound : (Demand.validate .checker document).isWellFormed = true)
    (last : ∀ other mode newer, .began other (.validate mode newer) ∈ future →
      newer.id.components ≠ document.id.components)
    (kept : .dropped id ∉ (after configuration actions).record)
    (succeeds : ∀ call success, .returned id call success ∈ (after configuration actions).record →
      success = true)
    (done : (after configuration actions).waiting id = none) :
    let record := (after configuration actions).record
    let artifact := Artifact.ofDocument document.id document.text tag configuration.artifactFileName
    (∃ remapping, Reported configuration actions id artifact remapping ∧
      .ended id (.outcome (.published remapping.diagnostics.length remapping.declarationErrors.length)) ∈ record ∧
      publications id record = [(document.id, remapping.diagnostics)] ∧
      (shown? document.id.components record = some remapping.diagnostics ∨
        ∃ upto since older former more,
          record = upto ++ .did id (.published document.id remapping.diagnostics) :: since ∧
          .began older (.validate .matcher former) ∈ past ∧ former.id.components = document.id.components ∧
          .did older (.published former.id more) ∈ since)) ∨
    Overtaken configuration id ⟨.checker, artifact.path.components⟩ record ∧ publications id record = [] := by
  intro record artifact
  have ordered := ordered_after configuration actions
  have began : .began id (.validate .checker document) ∈ (after configuration actions).record := by simp [split]
  have laned : (Demand.validate .checker document).lane? configuration =
      some ⟨.checker, Demand.keyFor configuration document.id .checker⟩ :=
    Demand.lane?_eq_some_iff.mpr ⟨json, by simp [Demand.document, tagged], rfl⟩
  have sound' : (Demand.validate .checker document).isMalformed = false := by simp [Demand.isMalformed, sound]
  have progress := progress_after configuration actions began json tagged sound' rfl kept succeeds
  cases progress with
  | writing waits | checking waits | removing waits => simp [done] at waits
  | @delivered remapping _ ended reported told =>
    exact .inl ⟨remapping, reported, ended, told, ordered.shown?_delivered split laned last told⟩
  | superseded _ overtaken quiet => exact .inr ⟨overtaken, quiet⟩

/-- A validation of the sample document that nobody disturbs. -/
def undisturbed : List Action :=
  [.begin 0 (.validate .checker sampleDocument), .reply 0 sampleSurroundings (.finished true),
    .reply 0 sampleSurroundings (.report (.ok [])), .reply 0 sampleSurroundings (.finished true)]

/-- It is delivered. -/
theorem last_validation_delivered_undisturbed :
    ∃ run, run = after .default undisturbed ∧ run.waiting 0 = none ∧
      (∀ entry ∈ run.record, entry.succeeds = true) ∧
      ∃ remapping, Reported .default undisturbed 0 (.ofDocument sampleDocument.id sampleDocument.text ⟨"m", "T"⟩
        Configuration.default.artifactFileName) remapping ∧
        publications 0 run.record = [(sampleDocument.id, remapping.diagnostics)] := by
  obtain ⟨run, named⟩ : ∃ run, run = after .default undisturbed := ⟨_, rfl⟩
  have split : run.record = [] ++ .began 0 (.validate .checker sampleDocument) :: run.record.drop 1 := by
    rw [named]
    decide +kernel
  have done : (run.waiting 0).isNone = true := by
    rw [named]
    decide +kernel
  have alone : ∀ entry ∈ run.record.drop 1, entry.opens? = none := by
    rw [named]
    decide +kernel
  have succeeds : ∀ entry ∈ run.record, entry.succeeds = true := by
    rw [named]
    decide +kernel
  have told : publications 0 run.record ≠ [] := by
    rw [named]
    decide +kernel
  have tagged : TypeTag.ofText? sampleDocument.text.toList = some ⟨"m", "T"⟩ := by decide +kernel
  rw [Option.isNone_iff_eq_none] at done
  refine ⟨run, named, done, succeeds, ?_⟩
  rw [named] at split done alone succeeds told ⊢
  rcases last_validation_delivered_or_overtaken .default undisturbed split rfl tagged
    (by decide +kernel) (fun other mode newer began => by cases alone _ began)
    (fun dropped => by cases succeeds _ dropped) (fun call success returned => succeeds _ returned) done with
    ⟨remapping, reported, -, published, -⟩ | ⟨-, quiet⟩
  · exact ⟨remapping, reported, published⟩
  · exact (told quiet).elim

/-- The last validation of a document in checker mode ends published, and what it has published is what
the host shows. -/
def LastValidationWins (run : Run) : Prop :=
  ∀ past id document future, run.record = past ++ .began id (.validate .checker document) :: future →
    document.isJson = true → (TypeTag.ofText? document.text.toList).isSome = true →
    (Demand.validate .checker document).isWellFormed = true →
    (∀ other mode newer, .began other (.validate mode newer) ∈ future →
      newer.id.components ≠ document.id.components) →
    (∀ entry ∈ run.record, entry.succeeds = true) → (∀ other ∈ names run.record, run.waiting other = none) →
    (∃ diagnostics errors, .ended id (.outcome (.published diagnostics errors)) ∈ run.record) ∧
      ∀ diagnostics, publications id run.record = [(document.id, diagnostics)] →
        shown? document.id.components run.record = some diagnostics

/-- A validation begins. -/
def Entry.beginsValidation : Entry → Bool
  | .began _ (.validate _ _) => true
  | _ => false

/-- A request ends published. -/
def Entry.delivers : Entry → Bool
  | .ended _ (.outcome (.published _ _)) => true
  | _ => false

/-- A hover that takes the lane over from a validation and goes on to its end. -/
def hoverToTheEnd : List Action :=
  overtakenBy (.hover sampleDocument .start) ++
    [.reply 1 sampleSurroundings (.finished true), .reply 1 sampleSurroundings (.hovers []),
      .reply 1 sampleSurroundings (.finished true)]

/-- A validation in matcher mode gets its type only after a newer validation has published. -/
def belatedMatcher : List Action :=
  [.begin 0 (.validate .matcher sampleDocument), .begin 1 (.validate .checker extendedDocument),
    .reply 1 sampleSurroundings (.finished true), .reply 1 sampleSurroundings (.report (.ok [])),
    .reply 1 sampleSurroundings (.finished true), .reply 0 sampleSurroundings (.resolved (.ok .null))]

/-- A hover can supersede the last validation of a document, and an older validation in matcher mode can
publish after it. -/
theorem last_validation_does_not_win :
    ¬ LastValidationWins (after .default hoverToTheEnd) ∧ ¬ LastValidationWins (after .default belatedMatcher) := by
  constructor
  · generalize named : after .default hoverToTheEnd = run
    intro wins
    have split : run.record = [] ++ .began 0 (.validate .checker sampleDocument) :: run.record.drop 1 := by
      rw [← named]
      decide +kernel
    have alone : ∀ entry ∈ run.record.drop 1, entry.beginsValidation = false := by
      rw [← named]
      decide +kernel
    have succeeds : ∀ entry ∈ run.record, entry.succeeds = true := by
      rw [← named]
      decide +kernel
    have done : ∀ id ∈ names run.record, run.waiting id = none := by
      rw [← named]
      decide +kernel
    have superseded : ∀ entry ∈ run.record, entry.delivers = false := by
      rw [← named]
      decide +kernel
    obtain ⟨⟨diagnostics, errors, ended⟩, -⟩ := wins [] 0 sampleDocument _ split rfl (by decide +kernel)
      (by decide +kernel) (fun other mode newer began => by cases alone _ began) succeeds done
    cases superseded _ ended
  · generalize named : after .default belatedMatcher = run
    intro wins
    have split : run.record =
        run.record.take 2 ++ .began 1 (.validate .checker extendedDocument) :: run.record.drop 3 := by
      rw [← named]
      decide +kernel
    have alone : ∀ entry ∈ run.record.drop 3, entry.beginsValidation = false := by
      rw [← named]
      decide +kernel
    have succeeds : ∀ entry ∈ run.record, entry.succeeds = true := by
      rw [← named]
      decide +kernel
    have done : ∀ id ∈ names run.record, run.waiting id = none := by
      rw [← named]
      decide +kernel
    have told : publications 1 run.record = [(extendedDocument.id, [])] := by
      rw [← named]
      decide +kernel
    have other : shown? extendedDocument.id.components run.record ≠ some [] := by
      rw [← named]
      decide +kernel
    obtain ⟨-, shows⟩ := wins _ 1 extendedDocument _ split rfl (by decide +kernel)
      (by decide +kernel) (fun other mode newer began => by cases alone _ began) succeeds done
    exact other (shows [] told)

end Run
end TypedJson
