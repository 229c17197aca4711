import TypedJson.Proofs.Path
import TypedJson.Proofs.Run.Newest

/-! # The latest text of a document

Validations of one document in one mode share a lane, however the path of the document is written. So a
validation that begins silences the older ones of that mode, whether or not its own text is JSON. It has
no power over the other mode, whose tickets come from another gate, and a text without a tag draws no
ticket at all.
-/

namespace TypedJson

/-- Lanes do not depend on how the path of a document is written. -/
theorem Demand.keyFor_congr {id other : Path} (same : id.components = other.components)
    (configuration : Configuration) (mode : Mode) :
    keyFor configuration id mode = keyFor configuration other mode := by
  cases mode with
  | checker => exact Artifact.components_pathFor_congr same configuration.artifactFileName
  | matcher => exact same

/-- Validations of one document in one mode share a lane. -/
theorem Demand.lane?_validate_unique {configuration : Configuration} {mode : Mode}
    {document other : Document} {lane lane' : Lane} (same : document.id.components = other.id.components)
    (laned : (Demand.validate mode document).lane? configuration = some lane)
    (laned' : (Demand.validate mode other).lane? configuration = some lane') : lane = lane' := by
  obtain ⟨-, -, own⟩ := lane?_eq_some_iff.mp laned
  obtain ⟨-, -, own'⟩ := lane?_eq_some_iff.mp laned'
  rw [own, own']
  simp only [Demand.mode, Demand.document, keyFor_congr same]

namespace Run

variable {configuration : Configuration} {run : Run}

/-- Once another request has entered the only lane that a request can be in, it does nothing guarded. -/
theorem Ordered.overtaken (ordered : Ordered configuration run) {past future : List Entry}
    {older newer : ℕ} {former demand : Demand} {lane : Lane} {event : Event}
    (split : run.record = past ++ .began newer demand :: future)
    (laned : demand.lane? configuration = some lane) (earlier : .began older former ∈ past)
    (shared : ∀ lane', former.lane? configuration = some lane' → lane' = lane)
    (guarded : event.isGuarded = true) : .did older event ∉ future := by
  intro member
  obtain ⟨demand', lane', began, laned', apart, -⟩ :=
    ordered.elsewhere split laned (mem_names_iff.mpr ⟨former, earlier⟩) guarded member
  have early : .began older former ∈ run.record := by
    rw [split]
    exact List.mem_append_left _ earlier
  obtain rfl := began_unique ordered.once early began
  exact apart (shared lane' laned')

/-- Once a validation of a document with another text has begun, no older validation of the document
publishes. -/
def LatestTextWins (record : List Entry) : Prop :=
  ∀ past newer mode document future, record = past ++ .began newer (.validate mode document) :: future →
    ∀ older mode' former, .began older (.validate mode' former) ∈ past →
      former.id.components = document.id.components → former.text ≠ document.text →
      ∀ diagnostics, .did older (.published former.id diagnostics) ∉ future

/-- Once a validation of a document with a tag has begun, no older validation of the document in the same
mode publishes. -/
theorem latest_tagged_text_wins (configuration : Configuration) (actions : List Action)
    {past future : List Entry} {older newer : ℕ} {mode : Mode} {document former : Document}
    (split : (after configuration actions).record = past ++ .began newer (.validate mode document) :: future)
    (json : document.isJson = true) (tagged : (TypeTag.ofText? document.text.toList).isSome = true)
    (earlier : .began older (.validate mode former) ∈ past)
    (same : former.id.components = document.id.components) :
    ∀ id diagnostics, .did older (.published id diagnostics) ∉ future := by
  intro id diagnostics
  have laned : (Demand.validate mode document).lane? configuration =
      some ⟨mode, Demand.keyFor configuration document.id mode⟩ :=
    Demand.lane?_eq_some_iff.mpr ⟨json, tagged, rfl⟩
  exact (ordered_after configuration actions).overtaken split laned earlier
    (fun lane' laned' => Demand.lane?_validate_unique same laned' laned) rfl

/-- The sample document with a text that has no tag. -/
def untaggedDocument : Document := { sampleDocument with text := "\x7b\x7d" }

/-- A text that is not JSON silences an older validation that waits for the checker. -/
theorem latest_tagged_text_wins_broken :
    ∃ run, run = after .default (overtakenBy (.validate .checker brokenDocument)) ∧
      run.record = run.record.take 4 ++ .began 1 (.validate .checker brokenDocument) :: run.record.drop 5 ∧
      .began 0 (.validate .checker sampleDocument) ∈ run.record.take 4 ∧
      ∀ id diagnostics, .did 0 (.published id diagnostics) ∉ run.record.drop 5 := by
  obtain ⟨run, named⟩ : ∃ run, run = after .default (overtakenBy (.validate .checker brokenDocument)) :=
    ⟨_, rfl⟩
  have split : run.record =
      run.record.take 4 ++ .began 1 (.validate .checker brokenDocument) :: run.record.drop 5 := by
    rw [named]
    decide +kernel
  have earlier : .began 0 (.validate .checker sampleDocument) ∈ run.record.take 4 := by
    rw [named]
    decide +kernel
  refine ⟨run, named, split, earlier, ?_⟩
  rw [named] at split
  rw [named] at earlier ⊢
  exact latest_tagged_text_wins .default (overtakenBy (.validate .checker brokenDocument)) split
    (by decide +kernel) (by decide +kernel) earlier rfl

/-- The sample document with another text that has the tag. -/
def extendedDocument : Document := { sampleDocument with text := sampleDocument.text ++ "\n" }

/-- Neither a text without a tag nor a validation in the other mode silences an older validation. -/
theorem latest_text_does_not_win :
    ¬ LatestTextWins (after .default (overtakenBy (.validate .checker untaggedDocument))).record ∧
      ¬ LatestTextWins (after .default (overtakenBy (.validate .matcher extendedDocument))).record := by
  -- the older validation waits for the checker when the newer one begins, and publishes after that
  have refuted {record : List Entry} (mode : Mode) (document : Document)
      (split : record = record.take 4 ++ .began 1 (.validate mode document) :: record.drop 5)
      (earlier : .began 0 (.validate .checker sampleDocument) ∈ record.take 4)
      (same : sampleDocument.id.components = document.id.components)
      (other : sampleDocument.text ≠ document.text)
      (published : .did 0 (.published sampleDocument.id []) ∈ record.drop 5) : ¬ LatestTextWins record :=
    fun wins => wins _ 1 mode document _ split 0 .checker sampleDocument earlier same other [] published
  constructor
  · generalize named : after .default (overtakenBy (.validate .checker untaggedDocument)) = run
    refine refuted .checker untaggedDocument ?_ ?_ rfl (by decide +kernel) ?_
    all_goals
      rw [← named]
      decide +kernel
  · generalize named : after .default (overtakenBy (.validate .matcher extendedDocument)) = run
    refine refuted .matcher extendedDocument ?_ ?_ rfl (by decide +kernel) ?_
    all_goals
      rw [← named]
      decide +kernel

end Run
end TypedJson
