import TypedJson.CommandLine.Execution
import TypedJson.Proofs.SteadyServices

/-! # A batch and its documents

The documents of a batch share their services, a workspace and a host. When a document has been checked, the
host holds no diagnostics any more, since what was published was for this document and has been taken, and it
has been told so many more errors. So with steady services a batch is the sum of its documents, each on its
own, whatever the documents have in common.
-/

namespace TypedJson.CommandLine

namespace Host

/-- The host if it was told so many errors before. -/
def behind (host : Host) (errors : ℕ) : Host := { host with errors := errors + host.errors }

theorem eq_behind_empty {host : Host} (taken : host.collections = []) : host = empty.behind host.errors := by
  rw [behind, empty, ← taken]
  rfl

theorem foldl_note_behind (events : List Event) (host : Host) (errors : ℕ) :
    events.foldl note (host.behind errors) = (events.foldl note host).behind errors := by
  induction events generalizing host with
  | nil => rfl
  | cons event events ih =>
    have step : (host.behind errors).note event = (host.note event).behind errors := by cases event <;> rfl
    rw [List.foldl_cons, step, ih, List.foldl_cons]

/-- The host counts the errors that it is told. -/
theorem errors_foldl_note (events : List Event) (host : Host) :
    (events.foldl note host).errors = host.errors + events.countP Event.notifies := by
  induction events generalizing host with
  | nil => rfl
  | cons event events ih =>
    rw [List.foldl_cons, ih, List.countP_cons]
    cases event <;> simp [note, Event.notifies, Nat.add_assoc, Nat.add_comm 1]

theorem collections_foldl_note {events : List Event} (silent : ∀ event ∈ events, event.publishes = false)
    (host : Host) : (events.foldl note host).collections = host.collections := by
  induction events generalizing host with
  | nil => rfl
  | cons event events ih =>
    have step : (host.note event).collections = host.collections := by
      cases event with
      | published => cases silent _ (List.mem_cons_self ..)
      | _ => rfl
    rw [List.foldl_cons, ih (fun other member => silent other (List.mem_cons_of_mem _ member)), step]

end Host

/-- The outcome is no reason for an error status. -/
def isClean : Outcome → Bool
  | .failed => false
  | .published diagnostics declarationErrors => diagnostics = 0 ∧ declarationErrors = 0
  | .skipped | .untagged | .superseded => true

section Conclude

variable {colours : Bool} {name : String} {id : Path} {configuration : Configuration} {mode : Mode}
  {document : Document} {outcome : Outcome} {done : List Event}

theorem conclude_behind (host : Host) (errors : ℕ) (answer : Option Answer) :
    conclude colours name id (host.behind errors) answer =
      ((conclude colours name id host answer).1.behind errors, (conclude colours name id host answer).2) := by
  unfold conclude
  split <;> rfl

/-- Only a validation that ends published has published anything. -/
theorem silent_of_accounts (accounts : Accounts configuration mode document outcome done)
    (unpublished : ∀ diagnostics errors, outcome ≠ .published diagnostics errors) :
    ∀ event ∈ done, event.publishes = false := by
  cases outcome with
  | skipped => simp [accounts.idle (.inr rfl)]
  | untagged => simp [accounts.idle (.inl rfl)]
  | superseded => exact fun event member => (accounts.superseded_quiet event member).1
  | failed => exact accounts.failed_quiet.1
  | published diagnostics errors => exact (unpublished diagnostics errors rfl).elim

/-- After a document the host is left without diagnostics, whichever way its validation ended. -/
theorem conclude_of_accounts (colours : Bool) (name : String)
    (accounts : Accounts configuration mode document outcome done) :
    let concluded := conclude colours name document.id (done.foldl Host.note .empty) (some (.outcome outcome))
    concluded.1.collections = [] ∧ concluded.1.errors = done.countP Event.notifies ∧
      concluded.2.clean = isClean outcome := by
  have errors : (done.foldl Host.note .empty).errors = done.countP Event.notifies := by
    rw [Host.errors_foldl_note]
    exact Nat.zero_add _
  cases outcome with
  | published diagnostics declarationErrors =>
    obtain ⟨before, told, after, rfl, silent, rfl, -, -⟩ := accounts.delivers
    simp only [List.mem_append, or_imp, forall_and] at silent
    have kept : ((before ++ .published document.id told :: after).foldl Host.note .empty).collections =
        [(document.id.components, told)] := by
      rw [List.foldl_append, List.foldl_cons, Host.collections_foldl_note silent.2, Host.note,
        Host.collections_foldl_note silent.1]
      rfl
    simp only [conclude, Host.take, kept, checkedSummary, isClean]
    refine ⟨by simp, errors, ?_⟩
    cases told <;> simp
  | skipped | untagged | superseded | failed =>
    have silent := silent_of_accounts accounts (by simp)
    exact ⟨Host.collections_foldl_note silent .empty, errors, rfl⟩

end Conclude

/-- What is said about a document in a batch of its own, and the host after that. -/
def verdict (colours : Bool) (workingDirectory : Path) (replies : Replies) (configuration : Configuration)
    (document : Document) : Host × Summary :=
  let (events, outcome) := replies.validation configuration document
  let (host, told) := conclude colours (displayName workingDirectory document.id) document.id
    (events.foldl Host.note .empty) (some (.outcome outcome))
  (host, ⟨events.filterMap (complaintLine? colours) ++ told.lines, told.clean⟩)

namespace Batch

variable {σ : Type} {services : Services σ} {replies : Replies} {configuration : Configuration} {batch : Batch σ}

/-- Between two documents a batch has its configuration, and all diagnostics have been taken from the host. -/
structure Settled (configuration : Configuration) (batch : Batch σ) : Prop where
  configured : batch.workspace.configuration = configuration
  taken : batch.host.collections = []

theorem settled_start (configuration : Configuration) (state : σ) :
    (start configuration state).Settled configuration := ⟨rfl, rfl⟩

section Check

variable (colours : Bool) (workingDirectory : Path) (document : Document)

/-- A document adds its verdict to a batch. -/
theorem check_of_steady (steady : services.Steady replies) (settled : batch.Settled configuration) :
    let next := batch.check services colours workingDirectory document
    let alone := verdict colours workingDirectory replies configuration document
    next.workspace.configuration = configuration ∧ next.host = alone.1.behind batch.host.errors ∧
      next.summary = batch.summary.append alone.2 := by
  have took := settled.configured ▸ steady.took_validate batch.state batch.workspace document
  simp only [check, verdict, took.events, took.answer]
  rw [Host.eq_behind_empty settled.taken, Host.foldl_note_behind, conclude_behind]
  exact ⟨took.configuration, rfl, rfl⟩

theorem Settled.check (settled : batch.Settled configuration) (steady : services.Steady replies) :
    (batch.check services colours workingDirectory document).Settled configuration := by
  obtain ⟨configured, host, -⟩ := check_of_steady colours workingDirectory document steady settled
  refine ⟨configured, ?_⟩
  rw [host]
  exact (conclude_of_accounts _ _ (replies.accounts_validation configuration document)).1

end Check

section CheckAll

variable (colours : Bool) (workingDirectory : Path)

theorem checkAll_cons (document : Document) (documents : List Document) :
    batch.checkAll services colours workingDirectory (document :: documents) =
      (batch.check services colours workingDirectory document).checkAll services colours workingDirectory documents :=
  rfl

theorem Settled.checkAll (settled : batch.Settled configuration) (steady : services.Steady replies)
    (documents : List Document) :
    (batch.checkAll services colours workingDirectory documents).Settled configuration := by
  induction documents generalizing batch with
  | nil => exact settled
  | cons document documents ih => exact ih (settled.check colours workingDirectory document steady)

/-- A batch ends with what the verdicts on its documents add up to. -/
theorem checkAll_of_steady (steady : services.Steady replies) (settled : batch.Settled configuration)
    (documents : List Document) :
    let last := batch.checkAll services colours workingDirectory documents
    let alone := verdict colours workingDirectory replies configuration
    (last.host.errors = 0 ↔ batch.host.errors = 0 ∧ ∀ document ∈ documents, (alone document).1.errors = 0) ∧
      last.summary.lines = batch.summary.lines ++ documents.flatMap (fun document => (alone document).2.lines) ∧
      last.summary.clean = (batch.summary.clean && documents.all fun document => (alone document).2.clean) := by
  induction documents generalizing batch with
  | nil => simp [checkAll]
  | cons document documents ih =>
    obtain ⟨errors, lines, clean⟩ := ih (settled.check colours workingDirectory document steady)
    obtain ⟨-, host, summary⟩ := check_of_steady colours workingDirectory document steady settled
    rw [host] at errors
    rw [summary] at lines clean
    simp only [checkAll_cons, errors, lines, clean]
    simp [Host.behind, Summary.append, and_assoc, Bool.and_assoc]

end CheckAll

end Batch

theorem isJson_of_readDocument {tree : FileTree} {path : Path} {document : Document}
    (read : readDocument tree path = .ok document) : document.isJson = true := by
  simp only [readDocument] at read
  split at read
  · cases read
  · obtain rfl := Except.ok.inj read
    rfl

theorem isJson_of_mapM_readDocument {tree : FileTree} {paths : List Path} {documents : List Document}
    (read : paths.mapM (readDocument tree) = .ok documents) : ∀ document ∈ documents, document.isJson = true := by
  induction paths generalizing documents with
  | nil =>
    cases read
    simp
  | cons path paths ih =>
    rw [List.mapM_cons] at read
    cases first : readDocument tree path with
    | error failure =>
      rw [first] at read
      cases read
    | ok document =>
      cases others : paths.mapM (readDocument tree) with
      | error failure =>
        rw [first, others] at read
        cases read
      | ok rest =>
        rw [first, others] at read
        cases read
        exact List.forall_mem_cons.mpr ⟨isJson_of_readDocument first, ih others⟩

/-- The documents of an invocation are taken for JSON, whatever they are. -/
theorem isJson_of_documents {invocation : Invocation} {tree : FileTree} {documents : List Document}
    (read : invocation.documents tree = .ok documents) : ∀ document ∈ documents, document.isJson = true := by
  simp only [Invocation.documents] at read
  cases expanded : Input.allPaths (Glob.expand tree) invocation.inputs with
  | error failure =>
    rw [expanded] at read
    cases read
  | ok paths =>
    rw [expanded] at read
    exact isJson_of_mapM_readDocument read

section Documents

variable {σ : Type} {services : Services σ} {replies : Replies} {configuration : Configuration}

/-- The validation of a document in a batch that has checked other documents before. -/
def validationAfter (services : Services σ) (colours : Bool) (workingDirectory : Path)
    (configuration : Configuration) (state : σ) (before : List Document) (document : Document) :
    Services.Finished σ :=
  let batch := (Batch.start configuration state).checkAll services colours workingDirectory before
  services.validate batch.state batch.workspace document

theorem took_validationAfter (steady : services.Steady replies) (colours : Bool) (workingDirectory : Path)
    (configuration : Configuration) (state : σ) (before : List Document) (document : Document) :
    (validationAfter services colours workingDirectory configuration state before document).Took configuration
      (replies.validation configuration document) := by
  have settled := (Batch.settled_start configuration state).checkAll colours workingDirectory steady before
  simp only [validationAfter]
  generalize (Batch.start configuration state).checkAll services colours workingDirectory before = batch at settled
  rw [← settled.configured]
  exact steady.took_validate ..

/-- The lines and the status of a batch are those of its verdicts. -/
theorem checkDocuments_of_steady (steady : services.Steady replies) (colours : Bool) (workingDirectory : Path)
    (configuration : Configuration) (state : σ) (documents : List Document) :
    let summary := (checkDocuments services colours workingDirectory configuration state documents).2
    let alone := verdict colours workingDirectory replies configuration
    (summary.clean = true ↔
        ∀ document ∈ documents, (alone document).2.clean = true ∧ (alone document).1.errors = 0) ∧
      summary.lines = documents.flatMap fun document => (alone document).2.lines := by
  obtain ⟨errors, lines, clean⟩ := Batch.checkAll_of_steady colours workingDirectory steady
    (Batch.settled_start configuration state) documents
  simp only [checkDocuments, Bool.and_eq_true, decide_eq_true_eq, errors, lines, clean]
  constructor
  · simp [Batch.start, Host.empty, forall_and]
  · simp [Batch.start]

/-- A verdict is clean if the outcome is and no error was told. -/
theorem verdict_clean_iff (colours : Bool) (workingDirectory : Path) (replies : Replies)
    (configuration : Configuration) (document : Document) :
    let alone := verdict colours workingDirectory replies configuration document
    let course := replies.validation configuration document
    alone.2.clean = true ∧ alone.1.errors = 0 ↔
      (document.isJson = true → course.2 = .untagged ∨ course.2 = .published 0 0) ∧
        ∀ event ∈ course.1, event.notifies = false := by
  obtain ⟨-, errors, clean⟩ := conclude_of_accounts colours (displayName workingDirectory document.id)
    (replies.accounts_validation configuration document)
  obtain ⟨lasting, skipped⟩ := Replies.validation_outcome replies configuration document
  simp only [verdict, errors, clean, List.countP_eq_zero, Bool.not_eq_true]
  refine and_congr_left fun _ => ?_
  generalize (replies.validation configuration document).2 = outcome at lasting skipped
  cases outcome with
  | superseded => exact (lasting rfl).elim
  | skipped => simp [isClean, skipped.mp rfl]
  | untagged => simp [isClean]
  | failed =>
    have json : document.isJson = true := by simpa using skipped
    simp [isClean, json]
  | published diagnostics declarationErrors =>
    have json : document.isJson = true := by simpa using skipped
    simp [isClean, json]

/-- With steady services a batch is clean if each of its documents is clean in a batch of its own, and its lines
are those of its documents in their order, whatever state each of the batches begins with. Every document of a batch
has an outcome and is not superseded, and it is skipped if it is not JSON, which no document of an invocation is.
The batch is clean if every document that is JSON is untagged, or published without diagnostics and without
declaration errors, and no error was told. -/
theorem checkDocuments_as_each_alone (steady : services.Steady replies) (colours : Bool) (workingDirectory : Path)
    (configuration : Configuration) (state : σ) (documents : List Document) :
    let check := checkDocuments services colours workingDirectory configuration
    let validation := validationAfter services colours workingDirectory configuration state
    (∀ fresh, ((check state documents).2.clean = true ↔
          ∀ document ∈ documents, (check fresh [document]).2.clean = true) ∧
        (check state documents).2.lines = documents.flatMap fun document => (check fresh [document]).2.lines) ∧
      ((check state documents).2.clean = true ↔ ∀ before document after, documents = before ++ document :: after →
        (document.isJson = true → (validation before document).answer = some (.outcome .untagged) ∨
          (validation before document).answer = some (.outcome (.published 0 0))) ∧
        ∀ event ∈ (validation before document).events, event.notifies = false) ∧
      (∀ before document after, documents = before ++ document :: after →
        ∃ outcome, (validation before document).answer = some (.outcome outcome) ∧ outcome ≠ .superseded ∧
          (outcome = .skipped ↔ document.isJson = false)) ∧
      ∀ (invocation : Invocation) (tree : FileTree), invocation.documents tree = .ok documents →
        ∀ document ∈ documents, document.isJson = true := by
  intro check validation
  obtain ⟨clean, lines⟩ := checkDocuments_of_steady steady colours workingDirectory configuration state documents
  have took := took_validationAfter steady colours workingDirectory configuration state
  have answers := fun before document => (took before document).answer
  have events := fun before document => (took before document).events
  have verdicts := verdict_clean_iff colours workingDirectory replies configuration
  refine ⟨fun fresh => ?_, ?_, fun before document after _ => ?_, fun _ _ => isJson_of_documents⟩
  · have alone := fun document =>
      checkDocuments_of_steady steady colours workingDirectory configuration fresh [document]
    simp only [List.forall_mem_singleton, List.flatMap_singleton] at alone
    constructor
    · exact clean.trans (forall₂_congr fun document _ => (alone document).1.symm)
    · exact lines.trans (List.flatMap_congr fun document _ => (alone document).2.symm)
  · simp only [validation, answers, events, Option.some.injEq, Answer.outcome.injEq]
    refine clean.trans ⟨fun each before document after split => ?_, fun each document member => ?_⟩
    · exact (verdicts document).mp (each document (by simp [split]))
    · obtain ⟨before, after, split⟩ := List.append_of_mem member
      exact (verdicts document).mpr (each before document after split)
  · exact ⟨_, answers before document, Replies.validation_outcome ..⟩

end Documents

/-- A checker that finds fault with files of more than 132 bytes. All files can be written. -/
def sampleReplies : Replies where
  writes _ _ := true
  removes _ := true
  report path content := .ok (if 132 < content.utf8ByteSize then [⟨some path, 2, 0, 1, none, "too long"⟩] else [])
  type _ _ := .ok .any
  aliasing _ _ := false

/-- Documents of one directory, the first of them twice. The checker finds fault with the third one, the fourth
one cannot be read, and the last one has no tag. -/
def sampleBatch : List Document :=
  [Run.sampleDocument, Run.sampleDocument,
    { Run.sampleDocument with id := ⟨"b.json"⟩, text := Run.sampleDocument.text ++ "\n" },
    { Run.brokenDocument with id := ⟨"c.json"⟩ }, { Run.sampleDocument with text := "\x7b\x7d" }]

/-- In the batch every document says what it says on its own, also the second time. -/
theorem checkDocuments_as_each_alone_sharing :
    ∃ check, check = checkDocuments sampleReplies.remembering false ⟨"/"⟩ .default ∧
      sampleReplies.remembering.Steady sampleReplies ∧
      (sampleBatch.map fun document => (check [] [document]).2.clean) = [true, true, false, false, true] ∧
      (check [] sampleBatch).2.clean = false ∧
      (check [] sampleBatch).2.lines = [.output "a.json: ok", .output "a.json: ok",
        .output "b.json:1:1: error: too long",
        .complaint "error: document is not valid JSON: trailing characters at line 1 column 38",
        .output "a.json: untagged, skipped"] := by
  have steady := sampleReplies.steady_remembering
  obtain ⟨alone, -⟩ := checkDocuments_as_each_alone steady false ⟨"/"⟩ .default [] sampleBatch
  obtain ⟨clean, lines⟩ := alone []
  have verdicts : (sampleBatch.map fun document =>
      (checkDocuments sampleReplies.remembering false ⟨"/"⟩ .default [] [document]).2.clean) =
        [true, true, false, false, true] := by decide +kernel
  refine ⟨_, rfl, steady, verdicts, Bool.eq_false_iff.mpr fun all => ?_, lines.trans (by decide +kernel)⟩
  have every := List.map_congr_left (clean.mp all)
  rw [verdicts] at every
  exact absurd every (by decide)

end TypedJson.CommandLine
