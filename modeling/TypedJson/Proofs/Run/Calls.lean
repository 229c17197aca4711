import TypedJson.Proofs.Path
import TypedJson.Proofs.Run.Lived

/-! # The calls of a request

Apart from the calls by which an artifact gets indexed, a request makes a call only to wait for its reply,
and what a request waits for is determined by its demand. So the demand alone tells which files a request
changes and which questions it asks.

A request changes the artifact of its document and no other file. Nothing keeps the name of the artifact
apart from the names of documents, so a document that has this name is itself written to and removed.
-/

namespace TypedJson

open Run (deeds deeds_append deeds_stretch)

/-- A request that makes a call after other things waits for that call. -/
theorem Turn.call?_of_called {workspace : Workspace} {events : List Event} {request : Request} {call : Call}
    (uncalled : .called call ∉ events) (called : .called call ∈ (Turn.await workspace events request).events) :
    request.call? = some call := by
  rcases List.mem_append.mp called with early | last
  · exact (uncalled early).elim
  · obtain ⟨other, calls, same⟩ := List.mem_map.mp last
    obtain rfl := Event.called.inj same
    exact Option.mem_toList.mp calls

section Called

variable {workspace : Workspace} {surroundings : Surroundings} {demand : Demand} {request : Request}
  {reply : Reply} {turn : Turn} {call : Call}

theorem Starts.call?_of_called (starts : Starts workspace demand turn) (called : .called call ∈ turn.events) :
    turn.request.call? = some call := by
  cases starts with
  | aside => cases called
  | malformed => simp [Turn.finish] at called
  | ask | write | resolve => exact Turn.call?_of_called (by simp) called

/-- Nothing is done about a document that is not JSON. -/
theorem Starts.isJson_of_call? (starts : Starts workspace demand turn) (waits : turn.request.call? = some call) :
    demand.document.isJson = true := by
  cases starts with
  | aside => cases waits
  | malformed => cases waits
  | ask _ json => exact json
  | write draws | resolve draws => exact (Demand.lane?_eq_some_iff.mp draws.serves.lane).1

theorem Continues.call?_of_called (continues : Continues surroundings workspace request reply turn)
    (called : .called call ∈ turn.events) :
    (Event.called call).isIndexing = true ∨ turn.request.call? = some call := by
  cases continues with
  | @index _ _ _ _ _ stretch before quiet =>
    simp only [Workspace.afterIndexing] at called ⊢
    split at called
    · exact .inl (List.all_eq_true.mp quiet _ called)
    · by_cases early : .called call ∈ stretch.events
      · exact .inl (List.all_eq_true.mp quiet _ early)
      · exact .inr (Turn.call?_of_called early called)
  | @suggested staged | @looked staged =>
    cases current : workspace.isCurrent staged with
    | true =>
      rw [Workspace.cleanUp_current current] at called ⊢
      exact .inr (Turn.call?_of_called (by simp) called)
    | false =>
      rw [Workspace.cleanUp_stale current] at called
      cases called
  | unresolved | resolved => simp [Turn.finish] at called
  | unwritten | overtaken | uncheckedStale | checkedStale | unresolvedStale | resolvedStale | removed
    | answered => cases called
  | check | look | unchecked => exact .inr (Turn.call?_of_called (by simp) called)
  | checked => exact .inr (Turn.call?_of_called (by simp [Staged.publication]) called)

end Called

theorem Lived.isJson_of_call? {configuration : Configuration} {id : ℕ} {demand : Demand}
    {entries : List Run.Entry} {left : Option Request} (lived : Lived configuration id demand entries left) :
    ∀ request ∈ left, ∀ call, request.call? = some call → demand.document.isJson = true := by
  induction lived with
  | begun _ starts =>
    rintro request ⟨⟩ call waits
    exact starts.isJson_of_call? waits
  | resumed _ _ calls _ ih => exact fun _ _ _ _ => ih _ rfl _ calls
  | dropped => rintro request ⟨⟩

theorem Staged.Serves.artifact_eq {configuration : Configuration} {demand : Demand} {staged : Staged} {tag : TypeTag}
    (serves : staged.Serves configuration demand)
    (tagged : TypeTag.ofText? demand.document.text.toList = some tag) : staged.artifact =
      Artifact.ofDocument demand.document.id demand.document.text tag configuration.artifactFileName := by
  rw [serves.artifact, Option.some.inj (serves.tag.symm.trans tagged)]

theorem Staged.Serves.path_eq {configuration : Configuration} {demand : Demand} {staged : Staged}
    (serves : staged.Serves configuration demand) :
    staged.artifact.path = Artifact.pathFor demand.document.id configuration.artifactFileName := by
  rw [serves.artifact]
  rfl

/-- A call that has been made was waited for on the way to what was demanded. -/
theorem Lived.called {configuration : Configuration} {id : ℕ} {demand : Demand} {entries : List Run.Entry}
    {left : Option Request} (lived : Lived configuration id demand entries left) {call : Call}
    (called : .called call ∈ deeds id entries) :
    (Event.called call).isIndexing = true ∨
      ∃ request : Request, request.call? = some call ∧ request.Serves configuration demand ∧
        demand.document.isJson = true := by
  induction lived with
  | begun configured starts =>
    rw [deeds_stretch rfl] at called
    have waits := starts.call?_of_called called
    have begun : Lived configuration id demand _ _ := .begun configured starts
    exact .inr ⟨_, waits, begun.serves _ rfl (Request.remaining_of_call? waits), starts.isJson_of_call? waits⟩
  | resumed configured lived calls continues ih =>
    rw [deeds_append, deeds_stretch rfl] at called
    rcases List.mem_append.mp called with early | late
    · exact ih early
    · refine (continues.call?_of_called late).imp_right fun waits => ⟨_, waits, ?_⟩
      have resumed := Lived.resumed configured lived calls continues
      exact ⟨resumed.serves _ rfl (Request.remaining_of_call? waits), resumed.isJson_of_call? _ rfl _ waits⟩
  | dropped lived ih =>
    rw [deeds_append] at called
    exact ih ((List.mem_append.mp called).resolve_right (by simp [deeds, Run.Entry.deedOf?]))

/-- The place that a request for suggestions or for a hover is about. -/
def Demand.cursor? : Demand → Option Position
  | complete _ position | hover _ position => some position
  | validate _ _ => none

/-- The place of a file that a call to the language service asks about. -/
def Call.place? : Call → Option (Path × Position)
  | completions path position | hovers path position => some (path, position)
  | _ => none

theorem Demand.cursor?_of_purpose? {demand : Demand} {position : Position}
    (purposed : demand.purpose? = some (.completion position) ∨ demand.purpose? = some (.hover position)) :
    demand.cursor? = some position := by
  cases demand with
  | validate mode document => cases mode <;> simp [Demand.purpose?] at purposed
  | complete document position => simpa [Demand.purpose?, Demand.cursor?] using purposed
  | hover document position => simpa [Demand.purpose?, Demand.cursor?] using purposed

namespace Run

variable {configuration : Configuration} {actions : List Action} {id : ℕ} {demand : Demand} {event : Event}
  {record : List Entry}

theorem mem_deeds_iff : event ∈ deeds id record ↔ .did id event ∈ record := by
  simp only [deeds, List.mem_filterMap]
  constructor
  · rintro ⟨entry, member, told⟩
    cases entry <;> simp only [Entry.deedOf?, reduceCtorEq, Option.ite_none_right_eq_some] at told
    obtain ⟨rfl, same⟩ := told
    exact Option.some.inj same ▸ member
  · intro member
    exact ⟨_, member, if_pos rfl⟩

/-- A call that a request makes in a run is one that its demand leads to. -/
theorem called_of_did (began : .began id demand ∈ (after configuration actions).record) {call : Call}
    (called : .did id (.called call) ∈ (after configuration actions).record) :
    (Event.called call).isIndexing = true ∨
      ∃ request : Request, request.call? = some call ∧ request.Serves configuration demand ∧
        demand.document.isJson = true := by
  obtain ⟨left, lives⟩ := lives_after configuration actions began
  apply lives.lived.called
  rw [deeds_about]
  exact mem_deeds_iff.mpr called

/-- The file that a request changes is the artifact of its document. -/
theorem path_of_changes? (began : .began id demand ∈ (after configuration actions).record)
    (did : .did id event ∈ (after configuration actions).record) {path : Path}
    (changes : event.changes? = some path) :
    path = Artifact.pathFor demand.document.id configuration.artifactFileName := by
  cases event with
  | called call =>
    rcases called_of_did began did with quiet | ⟨request, waits, serves, -⟩
    · have guarded := Event.isGuarded_of_changes? changes
      rw [Event.not_isGuarded_of_isIndexing quiet] at guarded
      cases guarded
    · have own {staged : Staged} (works : request.staged? = some staged) : staged.artifact.path =
          Artifact.pathFor demand.document.id configuration.artifactFileName :=
        (serves.staged staged works).path_eq
      -- of the calls that are waited for, only those of a write and of a removal change a file
      cases request with
      | writing | removing =>
        cases waits
        cases changes
        exact own rfl
      | indexing _ _ _ step => cases step <;> cases waits <;> cases changes
      | finished => cases waits
      | _ =>
        cases waits
        cases changes
  | _ => cases changes

/-- What a request asks about a document with a tag, it asks about the artifact, and there about the place of
its cursor. -/
theorem place_of_called (tagged : TypeTag.ofText? demand.document.text.toList = some tag)
    (began : .began id demand ∈ (after configuration actions).record) {call : Call}
    (called : .did id (.called call) ∈ (after configuration actions).record) {path : Path} {place : Position}
    (asks : call.place? = some (path, place)) :
    ∃ position artifact, demand.cursor? = some position ∧
      artifact = Artifact.ofDocument demand.document.id demand.document.text tag configuration.artifactFileName ∧
      path = artifact.path ∧ place = position.down artifact.headerLines := by
  rcases called_of_did began called with quiet | ⟨request, waits, serves, json⟩
  · cases call with
    | completions | hovers => cases quiet
    | _ => cases asks
  cases request with
  | completing staged position =>
    cases waits
    cases asks
    exact ⟨position, staged.artifact, Demand.cursor?_of_purpose? (.inl (serves.aim _ rfl)),
      (serves.staged staged rfl).artifact_eq tagged, rfl, rfl⟩
  | hovering staged position =>
    cases waits
    cases asks
    exact ⟨position, staged.artifact, Demand.cursor?_of_purpose? (.inr (serves.aim _ rfl)),
      (serves.staged staged rfl).artifact_eq tagged, rfl, rfl⟩
  | completingUntagged =>
    -- a document with a tag is in a lane
    have unlaned := Demand.lane?_eq_none_iff.mp (serves.aside rfl)
    simp [json, tagged] at unlaned
  | indexing _ _ _ step => cases step <;> cases waits <;> cases asks
  | finished => cases waits
  | _ =>
    cases waits
    cases asks

end Run

namespace Artifact

/-- A document has the name under which artifacts are written. Below a directory the name stands for the
last component of the document, and otherwise for the document as a whole. -/
def IsNamesake (document : Path) (fileName : String) : Prop :=
  if (⟨fileName⟩ : Path).isAbsolute ∨ document.components.dropLast = [] then
    (⟨fileName⟩ : Path).components = document.components
  else (⟨fileName⟩ : Path).segments.filterMap Path.componentOf? = document.components.getLast?.toList

/-- The artifact of a document is the document itself exactly if the document has the name of artifacts. -/
theorem same_pathFor_iff (document : Path) (fileName : String) :
    (pathFor document fileName).same document = true ↔ IsNamesake document fileName := by
  rw [Path.same_iff, components_pathFor, IsNamesake]
  split
  case isTrue => rfl
  case isFalse beside =>
    rw [not_or] at beside
    have parts : document.components = document.components.dropLast ++ document.components.getLast?.toList := by
      cases last : document.components.getLast? with
      | none => simp [List.getLast?_eq_none_iff.mp last] at beside
      | some component =>
        obtain ⟨front, whole⟩ := List.getLast?_eq_some_iff.mp last
        simp [whole]
    conv_lhs => rhs; rw [parts]
    exact List.append_right_inj _

/-- A name without directories is had by the documents that end in it. -/
theorem isNamesake_iff_of_plain {document : Path} {fileName name : String}
    (plain : (⟨fileName⟩ : Path).components = [.name name]) :
    IsNamesake document fileName ↔ document.components.getLast? = some (.name name) := by
  have relative : (⟨fileName⟩ : Path).isAbsolute = false := by
    cases absolute : (⟨fileName⟩ : Path).isAbsolute with
    | false => rfl
    | true => simp [Path.components, Path.anchor?, absolute] at plain
  have counted : (⟨fileName⟩ : Path).segments.filterMap Path.componentOf? = [.name name] := by
    simp only [Path.components, Path.anchor?, relative, Bool.false_eq_true, if_false] at plain
    split at plain
    · simp at plain
    · exact plain
  rw [IsNamesake, relative, counted, plain]
  cases parts : document.components with
  | nil => simp
  | cons first others =>
    cases others with
    | nil => simp [eq_comm]
    | cons second others => simp [Option.toList_eq_singleton_iff, eq_comm]

end Artifact

namespace Run

/-- No request changes the file that its document is. -/
def KeepsDocuments (run : Run) : Prop :=
  ∀ id demand event path, .began id demand ∈ run.record → .did id event ∈ run.record →
    event.changes? = some path → path.same demand.document.id = false

/-- A request changes no file but the artifact of its document, and this file is the document itself only if
the document has the name of artifacts. -/
theorem changes_artifact_only (configuration : Configuration) (actions : List Action) {id : ℕ}
    {demand : Demand} {event : Event} {path : Path}
    (began : .began id demand ∈ (after configuration actions).record)
    (did : .did id event ∈ (after configuration actions).record) (changes : event.changes? = some path) :
    path = Artifact.pathFor demand.document.id configuration.artifactFileName ∧
      (path.same demand.document.id = true ↔
        Artifact.IsNamesake demand.document.id configuration.artifactFileName) ∧
      ∀ name, (⟨configuration.artifactFileName⟩ : Path).components = [.name name] →
        (path.same demand.document.id = true ↔
          demand.document.id.components.getLast? = some (.name name)) := by
  obtain rfl := path_of_changes? began did changes
  refine ⟨rfl, Artifact.same_pathFor_iff .., fun name plain => ?_⟩
  rw [Artifact.same_pathFor_iff, Artifact.isNamesake_iff_of_plain plain]

/-- The sample document under the name of artifacts. -/
def namesakeDocument : Document := { sampleDocument with id := ⟨Artifact.defaultFileName⟩ }

/-- A validation that gets through to its end. -/
def validationOf (document : Document) : List Action :=
  [.begin 0 (.validate .checker document), .reply 0 sampleSurroundings (.finished true),
    .reply 0 sampleSurroundings (.report (.ok [])), .reply 0 sampleSurroundings (.finished true)]

/-- A validation of the sample document removes the artifact, which is another file. -/
theorem changes_artifact_only_sample :
    ∃ run, run = after .default (validationOf sampleDocument) ∧
      .began 0 (.validate .checker sampleDocument) ∈ run.record ∧
      .did 0 (.called (.remove ⟨"temp-validation.ts"⟩)) ∈ run.record ∧
      (⟨"temp-validation.ts"⟩ : Path).same sampleDocument.id = false := by
  obtain ⟨run, named⟩ : ∃ run, run = after .default (validationOf sampleDocument) := ⟨_, rfl⟩
  have began : .began 0 (.validate .checker sampleDocument) ∈ run.record := by
    rw [named]
    decide +kernel
  have removed : .did 0 (.called (.remove ⟨"temp-validation.ts"⟩)) ∈ run.record := by
    rw [named]
    decide +kernel
  refine ⟨run, named, began, removed, ?_⟩
  rw [named] at began removed
  obtain ⟨-, -, byName⟩ := changes_artifact_only .default (validationOf sampleDocument) began removed rfl
  rw [Bool.eq_false_iff]
  exact fun same => absurd ((byName "temp-validation.ts" (by decide +kernel)).mp same) (by decide +kernel)

/-- A validation overwrites and removes the document if it has the name that artifacts have by default. -/
theorem documents_not_kept : Configuration.ofText "\x7b\x7d".toList = .ok .default ∧
    ¬ KeepsDocuments (after .default (validationOf namesakeDocument)) ∧
    ∃ content, .did 0 (.called (.write namesakeDocument.id content)) ∈
        (after .default (validationOf namesakeDocument)).record ∧
      .did 0 (.called (.remove namesakeDocument.id)) ∈
        (after .default (validationOf namesakeDocument)).record := by
  have removed : .did 0 (.called (.remove namesakeDocument.id)) ∈
      (after .default (validationOf namesakeDocument)).record := by decide +kernel
  refine ⟨rfl, fun keeps => ?_, Artifact.headerText ⟨"m", "T"⟩ ++ namesakeDocument.text,
    by decide +kernel, removed⟩
  have kept := keeps 0 (.validate .checker namesakeDocument) _ namesakeDocument.id (by decide +kernel) removed rfl
  exact absurd kept (by decide +kernel)

end Run
end TypedJson
