import TypedJson.Proofs.Header
import TypedJson.Proofs.Run.Calls

/-! # Coordinates across the artifact

The text of a document stands in its artifact behind the header, whose lines no tag can break. So a place of
the document is in the artifact as many lines further down as the header has, and at the same character. This
is where requests ask about it, and a finding there is moved back to it. Above it are the lines of the header,
and what is found there concerns the tag alone.
-/

namespace TypedJson

/-- A finding is at a position of an artifact. -/
structure Finding.IsAt (artifact : Artifact) (aliasing : Aliasing) (position : Position) (finding : Finding) :
    Prop where
  file : ∃ file, finding.file = some file ∧ artifact.isAt aliasing file = true
  line : finding.line = position.line
  character : finding.character = position.character

namespace Artifact

variable {artifact : Artifact} {tag : TypeTag} {text : List Char} {aliasing : Aliasing} {finding : Finding}
  {position : Position}

theorem toList_content (id : Path) (text : String) (tag : TypeTag) (fileName : String) :
    (ofDocument id text tag fileName).content.toList = (headerText tag).toList ++ text.toList := String.toList_append

/-- The header of a tag has as many line feeds as lines. -/
theorem count_newline_headerText (tagged : TypeTag.ofText? text = some tag) :
    (headerText tag).toList.count '\n' = (header tag).length := by
  have lines : (headerText tag).toList = ((header tag).map String.toList).flatMap (· ++ ['\n']) := by
    rw [toList_headerText, List.flatMap_map]
  rw [lines, Text.count_newline_flatMap, List.length_map]
  intro line member
  obtain ⟨written, present, rfl⟩ := List.mem_map.mp member
  exact newline_not_mem_header tagged written present

theorem lastLine_headerText (tag : TypeTag) : Text.lastLine (headerText tag).toList = [] := by
  rw [toList_headerText]
  simp only [header, List.flatMap_cons, List.flatMap_nil, List.append_nil]
  rw [← List.append_assoc]
  exact Text.lastLine_newline _

/-- A finding on a line of the header concerns the tag. -/
theorem place?_of_line_lt (there : finding.IsAt artifact aliasing position)
    (above : position.line < artifact.headerLines) : artifact.place? aliasing finding =
      some (.declaration ("Error in $type: " ++ finding.message ++ "\n" ++ artifact.path.text)) := by
  obtain ⟨file, written, names⟩ := there.file
  simp [place?, written, names, there.line, above]

/-- A finding below the header is about the place of the document that stands there. -/
theorem place?_down (fits : position.line.toNat + artifact.headerLines.toNat < UInt32.size)
    (there : finding.IsAt artifact aliasing (position.down artifact.headerLines)) :
    ∃ diagnostic, artifact.place? aliasing finding = some (.document diagnostic) ∧
      diagnostic.range.start = position := by
  obtain ⟨file, written, names⟩ := there.file
  have line : finding.line = position.line + artifact.headerLines := by
    rw [there.line, Position.down, addCapped, if_pos fits]
  have below : ¬ finding.line < artifact.headerLines := by
    rw [line, UInt32.lt_iff_toNat_lt, UInt32.toNat_add, Nat.mod_eq_of_lt fits]
    omega
  simp only [place?, written, names, below, Bool.not_true, Bool.false_eq_true, if_false]
  refine ⟨_, rfl, ?_⟩
  simp only [line, there.character, Position.down, UInt32.add_sub_cancel]

/-- The lines of the header and of a text that is not too long can be counted. -/
theorem lines_lt_size (tag : TypeTag) (short : Text.byteLength text < UInt32.size - 2) :
    (header tag).length + text.count '\n' < UInt32.size := by
  have lines : text.count '\n' ≤ text.length := List.count_le_length
  have bytes := Text.length_le_byteLength text
  have header : (header tag).length = 2 := rfl
  omega

end Artifact

/-- Across the artifact of a text that is not too long, coordinates are exact. Behind the header, positions are
those of the document moved down by the header lines; there requests ask about their cursors, and findings
there are moved back to where they belong. All positions before that are on header lines, and what is found
there concerns the tag. -/
theorem coordinates_exact (configuration : Configuration) {document : Document} {tag : TypeTag}
    (tagged : TypeTag.ofText? document.text.toList = some tag)
    (short : Text.byteLength document.text.toList < UInt32.size - 2) :
    let artifact := Artifact.ofDocument document.id document.text tag configuration.artifactFileName
    let start := Text.byteLength (Artifact.headerText tag).toList
    (∀ offset, Position.atByte? artifact.content.toList (start + offset) =
      (Position.atByte? document.text.toList offset).map (·.down artifact.headerLines)) ∧
    (∀ offset position, Position.atByte? document.text.toList offset = some position →
      (position.down artifact.headerLines).line.toNat = position.line.toNat + artifact.headerLines.toNat ∧
      (position.down artifact.headerLines).character = position.character ∧
      (∀ actions id demand call path place, .began id demand ∈ (Run.after configuration actions).record →
        demand.document = document → demand.cursor? = some position →
        .did id (.called call) ∈ (Run.after configuration actions).record → call.place? = some (path, place) →
        path = artifact.path ∧ place = position.down artifact.headerLines) ∧
      ∀ aliasing finding, finding.IsAt artifact aliasing (position.down artifact.headerLines) →
        ∃ diagnostic, artifact.place? aliasing finding = some (.document diagnostic) ∧
          diagnostic.range.start = position) ∧
    ∀ offset position, offset < start → Position.atByte? artifact.content.toList offset = some position →
      position.line < artifact.headerLines ∧
      ∀ aliasing finding, finding.IsAt artifact aliasing position →
        ∃ message, artifact.place? aliasing finding = some (.declaration message) := by
  intro artifact start
  have ends := Artifact.lastLine_headerText tag
  have lines := Artifact.count_newline_headerText tagged
  have few := Artifact.lines_lt_size tag short
  have content : artifact.content.toList = (Artifact.headerText tag).toList ++ document.text.toList :=
    Artifact.toList_content ..
  have headed : artifact.headerLines = ((Artifact.headerText tag).toList.count '\n').toUInt32 := by
    rw [lines]
    rfl
  rw [← lines] at few
  refine ⟨?_, ?_, ?_⟩
  · intro offset
    rw [content, headed]
    exact Position.atByte?_append ends few offset
  · intro offset position stands
    obtain ⟨before, rest, split, -, rfl⟩ := Position.atByte?_eq_some_iff.mp stands
    have fits : (Position.after before).line.toNat + artifact.headerLines.toNat < UInt32.size := by
      rw [split, List.count_append] at few
      rw [headed, Position.after, UInt32.toNat_ofNat_of_lt' (by omega), UInt32.toNat_ofNat_of_lt' (by omega)]
      omega
    refine ⟨?_, rfl, ?_, fun aliasing finding there => Artifact.place?_down fits there⟩
    · rw [Position.down, addCapped, if_pos fits, UInt32.toNat_add, Nat.mod_eq_of_lt fits]
    · rintro actions id demand call path place began rfl cursor called asks
      obtain ⟨position', artifact', cursor', rfl, rfl, rfl⟩ := Run.place_of_called tagged began called asks
      obtain rfl := Option.some.inj (cursor.symm.trans cursor')
      exact ⟨rfl, rfl⟩
  · intro offset position within stands
    rw [content] at stands
    have above := Position.line_lt_of_atByte? ends (by omega) within stands
    rw [← headed] at above
    exact ⟨above, fun aliasing finding there => ⟨_, Artifact.place?_of_line_lt there above⟩⟩

/-- A document on two lines, with characters of two bytes in its tag and behind it. -/
def accentedDocument : Document :=
  { Run.sampleDocument with
    text := "\x7b\"$type\":\x7b\"$from\":\"é\",\"$import\":\"T\"\x7d,\n\"ü\":0\x7d" }

/-- The artifact of the accented document. -/
def accentedArtifact : Artifact :=
  .ofDocument accentedDocument.id accentedDocument.text ⟨"é", "T"⟩ Artifact.defaultFileName

/-- A finding in the artifact of the accented document. -/
def accentedFinding (position : Position) : Finding where
  file := some accentedArtifact.path
  line := position.line
  character := position.character
  length := 1
  code := none
  message := "?"

/-- Suggestions for the accented document, whose artifact is open in a view. -/
def accentedCompletion : List Run.Action :=
  [.begin 0 (.complete accentedDocument ⟨1, 2⟩),
    .reply 0 { Run.sampleSurroundings with isOpen := fun _ => true } (.finished true)]

/-- The place behind a character of two bytes is asked about, and found again, on the fourth line of the
artifact; the place behind the one in the header concerns the tag. -/
theorem coordinates_exact_accented :
    TypeTag.ofText? accentedDocument.text.toList = some ⟨"é", "T"⟩ ∧
      Text.byteLength accentedDocument.text.toList < UInt32.size - 2 ∧
      Position.atByte? accentedDocument.text.toList 42 = some ⟨1, 2⟩ ∧
      Position.atByte? accentedArtifact.content.toList (96 + 42) = some ⟨3, 2⟩ ∧
      (∃ path place, .did 0 (.called (.completions path place)) ∈ (Run.after .default accentedCompletion).record ∧
        path = accentedArtifact.path ∧ place = (⟨1, 2⟩ : Position).down 2) ∧
      (∃ diagnostic, accentedArtifact.place? Run.sampleSurroundings.aliasing (accentedFinding ⟨3, 2⟩) =
        some (.document diagnostic) ∧ diagnostic.range.start = ⟨1, 2⟩) ∧
      Position.atByte? accentedArtifact.content.toList 21 = some ⟨0, 20⟩ ∧
      ∃ message, accentedArtifact.place? Run.sampleSurroundings.aliasing (accentedFinding ⟨0, 20⟩) =
        some (.declaration message) := by
  have tagged : TypeTag.ofText? accentedDocument.text.toList = some ⟨"é", "T"⟩ := by decide +kernel
  have short : Text.byteLength accentedDocument.text.toList < UInt32.size - 2 := by decide +kernel
  have stands : Position.atByte? accentedDocument.text.toList 42 = some ⟨1, 2⟩ := by decide +kernel
  have headed : Position.atByte? accentedArtifact.content.toList 21 = some ⟨0, 20⟩ := by decide +kernel
  have start : Text.byteLength (Artifact.headerText ⟨"é", "T"⟩).toList = 96 := by decide +kernel
  have asked : .did 0 (.called (.completions ⟨"temp-validation.ts"⟩ ⟨3, 2⟩)) ∈
      (Run.after .default accentedCompletion).record := by decide +kernel
  have there (position : Position) :
      (accentedFinding position).IsAt accentedArtifact Run.sampleSurroundings.aliasing position :=
    ⟨⟨_, rfl, by decide +kernel⟩, rfl, rfl⟩
  obtain ⟨moved, below, above⟩ := coordinates_exact .default tagged short
  obtain ⟨-, -, asks, found⟩ := below 42 ⟨1, 2⟩ stands
  refine ⟨tagged, short, stands, ?_, ⟨_, _, asked, ?_⟩, found _ _ (there _), headed,
    (above 21 _ (by rw [start]; decide) headed).2 _ _ (there _)⟩
  · rw [← start]
    exact (moved 42).trans (by rw [stands]; rfl)
  · exact asks accentedCompletion 0 (.complete accentedDocument ⟨1, 2⟩) _ _ _ (by decide +kernel) rfl rfl asked rfl

end TypedJson
