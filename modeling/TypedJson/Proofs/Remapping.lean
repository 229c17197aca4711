import TypedJson.CommandLine.Batch
import TypedJson.Proofs.FindingLine
import Mathlib.Data.List.Forall2

/-! # From the output of a checker to printed positions

Each finding of the output is passed over, or concerns the tag, or is shown in the document. On the way from the
digits of the output to the digits that are printed no number leaves the words of 32 bits, whatever digits there
are: `Remapping.ofOutput_exact`.
-/

namespace TypedJson

variable {artifact : Artifact} {aliasing : Aliasing} {ignored : List UInt32} {finding : Finding}
  {findings : List Finding}

/-! ## Where findings come from -/

namespace Finding

variable {directory : Path} {raw output : List Char}

/-- A finding is read from a line, but for what later lines add to its message. -/
def IsReadFrom (directory : Path) (raw file : List Char) (place : Place) (finding : Finding) : Prop :=
  Text.trimEnd raw = file ++ place.text ∧
    finding = { place.finding (directory.join ⟨String.ofList file⟩) with message := finding.message }

/-- A line adds one finding at most, and changes no more than a message. -/
theorem cases_of_mem_readLine (listed : finding ∈ readLine directory findings raw) :
    (∃ file place, IsReadFrom directory raw file place finding) ∨
      ∃ former ∈ findings, finding = { former with message := finding.message } := by
  rw [readLine.eq_def] at listed
  dsimp only at listed
  split at listed
  case h_1 found read =>
    rcases List.mem_cons.mp listed with rfl | former
    · obtain ⟨file, place, written, rfl⟩ := exists_place_of_ofLine? read
      exact .inl ⟨file, place, written, rfl⟩
    · exact .inr ⟨_, former, rfl⟩
  case h_2 => cases listed
  case h_3 latest earlier none =>
    split at listed
    case isTrue =>
      rcases List.mem_cons.mp listed with rfl | former
      · exact .inr ⟨latest, List.mem_cons_self, rfl⟩
      · exact .inr ⟨_, List.mem_cons_of_mem _ former, rfl⟩
    case isFalse => exact .inr ⟨_, listed, rfl⟩

/-- Every finding is read from a line of the output. -/
theorem exists_place_of_mem_ofOutput (listed : finding ∈ ofOutput directory output) :
    ∃ line ∈ Text.lines output, ∃ file place, IsReadFrom directory line file place finding := by
  refine List.foldlRecOn (motive := fun findings => ∀ finding ∈ findings, ∃ line ∈ Text.lines output,
    ∃ file place, IsReadFrom directory line file place finding) (Text.lines output) _ (List.forall_mem_nil _) ?_
    finding (List.mem_reverse.mp listed)
  intro findings former line member finding listed
  rcases cases_of_mem_readLine listed with read | ⟨earlier, present, same⟩
  · exact ⟨line, member, read⟩
  · obtain ⟨line, member, file, place, written, read⟩ := former earlier present
    refine ⟨line, member, file, place, written, ?_⟩
    rw [same, read]

end Finding

/-! ## Where findings belong -/

namespace Artifact

/-- A finding is passed over: its code is ignored, or its file is not the artifact. -/
def PassesOver (artifact : Artifact) (aliasing : Aliasing) (ignored : List UInt32) (finding : Finding) : Prop :=
  (∃ code ∈ finding.code, code ∈ ignored) ∨
    ¬ ∃ file ∈ finding.file, file.same artifact.path = true ∨ aliasing file artifact.path = true

instance : Decidable (artifact.PassesOver aliasing ignored finding) := inferInstanceAs (Decidable (_ ∨ _))

/-- What is said about a finding in the header. -/
def declaration (artifact : Artifact) (finding : Finding) : String :=
  "Error in $type: " ++ finding.message ++ "\n" ++ artifact.path.text

/-- The diagnostic of a finding below the header. -/
def shown (artifact : Artifact) (finding : Finding) : Diagnostic :=
  let line := finding.line - artifact.headerLines
  ⟨⟨⟨line, finding.character⟩, ⟨line, addCapped finding.character finding.length⟩⟩, finding.message⟩

/-- The place of a finding about the artifact, in the header or below it. -/
def place (artifact : Artifact) (finding : Finding) : Placement :=
  if finding.line < artifact.headerLines then .declaration (artifact.declaration finding)
  else .document (artifact.shown finding)

theorem isIgnored_iff : Remapping.isIgnored ignored finding = true ↔ ∃ code ∈ finding.code, code ∈ ignored := by
  rw [Remapping.isIgnored]
  cases finding.code <;> simp

theorem place?_eq_some
    (about : ∃ file ∈ finding.file, file.same artifact.path = true ∨ aliasing file artifact.path = true) :
    artifact.place? aliasing finding = some (artifact.place finding) := by
  obtain ⟨file, written, names⟩ := about
  have isAt : artifact.isAt aliasing file = true := Bool.or_eq_true_iff.mpr names
  rw [place?, Option.mem_def.mp written, place]
  simp only [isAt, Bool.not_true, Bool.false_eq_true, if_false]
  split
  case isTrue => rfl
  case isFalse => rfl

theorem place?_eq_none
    (other : ¬ ∃ file ∈ finding.file, file.same artifact.path = true ∨ aliasing file artifact.path = true) :
    artifact.place? aliasing finding = none := by
  rw [place?]
  cases written : finding.file with
  | none => rfl
  | some file =>
    have apart : ¬ artifact.isAt aliasing file = true := fun isAt =>
      other ⟨file, written, Bool.or_eq_true_iff.mp isAt⟩
    simp only [apart, Bool.not_false, if_true]

theorem declaration?_place (artifact : Artifact) (finding : Finding) :
    Remapping.declaration? (artifact.place finding) =
      if finding.line < artifact.headerLines then some (artifact.declaration finding) else none := by
  rw [place]
  split <;> rfl

theorem diagnostic?_place (artifact : Artifact) (finding : Finding) :
    Remapping.diagnostic? (artifact.place finding) =
      if ¬ finding.line < artifact.headerLines then some (artifact.shown finding) else none := by
  rw [place, ite_not]
  split <;> rfl

end Artifact

namespace Remapping

/-- The findings that are not passed over are those that have a place. -/
theorem filterMap_place? (artifact : Artifact) (aliasing : Aliasing) (ignored : List UInt32)
    (findings : List Finding) :
    (findings.filter (!isIgnored ignored ·)).filterMap (artifact.place? aliasing) =
      (findings.filter (¬ artifact.PassesOver aliasing ignored ·)).map artifact.place := by
  rw [List.filterMap_filter, ← List.filterMap_eq_map, List.filterMap_filter]
  refine List.filterMap_congr fun finding _ => ?_
  by_cases ignores : isIgnored ignored finding = true
  · have passed : artifact.PassesOver aliasing ignored finding := .inl (Artifact.isIgnored_iff.mp ignores)
    simp [ignores, passed]
  · by_cases about : ∃ file ∈ finding.file, file.same artifact.path = true ∨ aliasing file artifact.path = true
    · have kept : ¬ artifact.PassesOver aliasing ignored finding := by
        rintro (listed | other)
        · exact ignores (Artifact.isIgnored_iff.mpr listed)
        · exact other about
      simp [ignores, kept, Artifact.place?_eq_some about]
    · have passed : artifact.PassesOver aliasing ignored finding := .inr about
      simp [ignores, passed, Artifact.place?_eq_none about]

/-- What is picked from the places in a report is picked from the findings that are not passed over. -/
theorem filterMap_filterMap_place? {α : Type} {pick : Placement → Option α} {chosen : Finding → Prop}
    [DecidablePred chosen] {get : Finding → α}
    (picks : ∀ finding, pick (artifact.place finding) = if chosen finding then some (get finding) else none)
    (aliasing : Aliasing) (ignored : List UInt32) (findings : List Finding) :
    ((findings.filter (!isIgnored ignored ·)).filterMap (artifact.place? aliasing)).filterMap pick =
      ((findings.filter (¬ artifact.PassesOver aliasing ignored ·)).filter chosen).map get := by
  rw [filterMap_place?]
  generalize findings.filter (¬ artifact.PassesOver aliasing ignored ·) = kept
  rw [List.filterMap_map, ← List.filterMap_eq_map, List.filterMap_filter]
  refine List.filterMap_congr fun finding _ => ?_
  simp [picks]

theorem declarationErrors_eq (artifact : Artifact) (aliasing : Aliasing) (ignored : List UInt32)
    (findings : List Finding) : (ofFindings artifact aliasing ignored findings).declarationErrors =
      ((findings.filter (¬ artifact.PassesOver aliasing ignored ·)).filter (·.line < artifact.headerLines)).map
        artifact.declaration :=
  filterMap_filterMap_place? artifact.declaration?_place aliasing ignored findings

theorem diagnostics_eq (artifact : Artifact) (aliasing : Aliasing) (ignored : List UInt32)
    (findings : List Finding) : (ofFindings artifact aliasing ignored findings).diagnostics =
      ((findings.filter (¬ artifact.PassesOver aliasing ignored ·)).filter (¬ ·.line < artifact.headerLines)).map
        artifact.shown :=
  filterMap_filterMap_place? artifact.diagnostic?_place aliasing ignored findings

end Remapping

/-! ## Numbers -/

theorem toNat_addCapped (a b : UInt32) : (addCapped a b).toNat = min (a.toNat + b.toNat) wordMax.toNat := by
  have largest : wordMax.toNat + 1 = UInt32.size := rfl
  rw [addCapped]
  split
  case isTrue fits =>
    rw [UInt32.toNat_add, Nat.mod_eq_of_lt fits]
    omega
  case isFalse exceeds => omega

theorem toNat_add_one {word : UInt32} (fits : word.toNat + 1 < UInt32.size) : (word + 1).toNat = word.toNat + 1 := by
  rw [UInt32.toNat_add]
  exact Nat.mod_eq_of_lt fits

/-- A diagnostic shows a finding in the document behind a header. Its numbers are those of the finding without a
bound on them, but for the end of its range, which stays within the greatest word. -/
structure Finding.ShownBy (header : UInt32) (finding : Finding) (diagnostic : Diagnostic) : Prop where
  line : diagnostic.range.start.line.toNat + header.toNat = finding.line.toNat
  character : diagnostic.range.start.character = finding.character
  stop_line : diagnostic.range.stop.line = diagnostic.range.start.line
  stop_character : diagnostic.range.stop.character.toNat =
    min (finding.character.toNat + finding.length.toNat) wordMax.toNat
  message : diagnostic.message = finding.message

theorem Artifact.shown_shows (below : ¬ finding.line < artifact.headerLines) :
    finding.ShownBy artifact.headerLines (artifact.shown finding) where
  line := by
    have header : artifact.headerLines.toNat ≤ finding.line.toNat :=
      UInt32.le_iff_toNat_le.mp (UInt32.not_lt.mp below)
    rw [shown, UInt32.toNat_sub_of_le _ _ (UInt32.not_lt.mp below), Nat.sub_add_cancel header]
  character := rfl
  stop_line := rfl
  stop_character := toNat_addCapped ..
  message := rfl

namespace Finding

variable {directory : Path} {raw file : List Char} {place : Place} {header : UInt32} {diagnostic : Diagnostic}

/-- The numbers of a finding are those that its line spells, counted from zero, and one more fits a word. -/
structure Counts (place : Place) (finding : Finding) : Prop where
  line : finding.line.toNat = ordinal place.line.text - 1
  line_fits : finding.line.toNat + 1 < UInt32.size
  character : finding.character.toNat = ordinal place.column.text - 1
  character_fits : finding.character.toNat + 1 < UInt32.size
  length : finding.length = 1

theorem zeroBased_fits (digits : List Char) : (zeroBased digits).toNat + 1 < UInt32.size := by
  have fits := ordinal_lt digits
  have words : 1 < UInt32.size := by decide
  rw [toNat_zeroBased]
  omega

theorem IsReadFrom.counts (read : IsReadFrom directory raw file place finding) : Counts place finding := by
  rw [read.2]
  exact ⟨toNat_zeroBased _, zeroBased_fits _, toNat_zeroBased _, zeroBased_fits _, rfl⟩

namespace ShownBy

variable (shows : ShownBy header finding diagnostic) (counted : Counts place finding)
include shows counted

theorem line_fits : diagnostic.range.start.line.toNat + 1 < UInt32.size := by
  have moved := shows.line
  have fits := counted.line_fits
  omega

theorem character_fits : diagnostic.range.start.character.toNat + 1 < UInt32.size := by
  rw [shows.character]
  exact counted.character_fits

/-- A finding that is read from output is one character long, and the end of its range fits a word. -/
theorem stop_eq : diagnostic.range.stop.character.toNat = diagnostic.range.start.character.toNat + 1 := by
  have fits := counted.character_fits
  have largest : wordMax.toNat + 1 = UInt32.size := rfl
  rw [shows.stop_character, shows.character, counted.length]
  exact min_eq_left (by change finding.character.toNat + 1 ≤ _; omega)

end ShownBy

end Finding

/-- Each finding in the output of a checker is passed over, concerns the tag or is shown in the document, in the order
of the output, and is counted exactly from the digits of the output to those that are printed. It is passed over
if its code is ignored or its file is not the artifact. Else it concerns the tag if it is on a line of the header,
and behind the header it is shown as many lines further up. -/
theorem Remapping.ofOutput_exact (directory : Path) (output : List Char) (artifact : Artifact) (aliasing : Aliasing)
    (ignored : List UInt32) :
    let findings := Finding.ofOutput directory output
    let kept := findings.filter (¬ artifact.PassesOver aliasing ignored ·)
    let remapping := ofFindings artifact aliasing ignored findings
    remapping.declarationErrors = (kept.filter (·.line < artifact.headerLines)).map artifact.declaration ∧
    List.Forall₂ (Finding.ShownBy artifact.headerLines) (kept.filter (¬ ·.line < artifact.headerLines))
      remapping.diagnostics ∧
    (∀ finding ∈ findings, ∃ line ∈ Text.lines output, ∃ file place,
      finding.IsReadFrom directory line file place ∧ finding.Counts place) ∧
    ∀ diagnostic ∈ remapping.diagnostics,
      diagnostic.range.stop.character.toNat = diagnostic.range.start.character.toNat + 1 ∧
      (diagnostic.range.start.line + 1).toNat = diagnostic.range.start.line.toNat + 1 ∧
      (diagnostic.range.start.character + 1).toNat = diagnostic.range.start.character.toNat + 1 ∧
      ∀ colours name, CommandLine.diagnosticLine colours name diagnostic =
        .output (name ++ ":" ++ toString (diagnostic.range.start.line + 1).toNat ++ ":" ++
          toString (diagnostic.range.start.character + 1).toNat ++ ": " ++
          CommandLine.Emphasis.error.on colours "error:" ++ " " ++ diagnostic.message) := by
  intro findings kept remapping
  have counts : ∀ finding ∈ findings, ∃ line ∈ Text.lines output, ∃ file place,
      finding.IsReadFrom directory line file place ∧ finding.Counts place := fun finding listed => by
    obtain ⟨line, member, file, place, read⟩ := Finding.exists_place_of_mem_ofOutput listed
    exact ⟨line, member, file, place, read, read.counts⟩
  have diagnostics := diagnostics_eq artifact aliasing ignored findings
  refine ⟨declarationErrors_eq .., ?_, counts, ?_⟩
  · rw [diagnostics, List.forall₂_map_right_iff, List.forall₂_same]
    exact fun finding below => Artifact.shown_shows (of_decide_eq_true (List.mem_filter.mp below).2)
  · intro diagnostic published
    rw [diagnostics] at published
    obtain ⟨finding, listed, rfl⟩ := List.mem_map.mp published
    obtain ⟨present, below⟩ := List.mem_filter.mp listed
    obtain ⟨line, -, file, place, -, counted⟩ := counts finding (List.mem_filter.mp present).1
    have shows := Artifact.shown_shows (of_decide_eq_true below)
    have printedLine := toNat_add_one (shows.line_fits counted)
    have printedCharacter := toNat_add_one (shows.character_fits counted)
    refine ⟨shows.stop_eq counted, printedLine, printedCharacter, fun colours name => ?_⟩
    rw [CommandLine.diagnosticLine, printedLine, printedCharacter]

/-- Findings in an artifact at the ends of the words, in its header, with a code to ignore, and in another file. -/
def farOutput : List Char :=
  ("a.ts(4294967295,٣): error TS1: far\na.ts(2,1): error TS2: tag\na.ts(9,9): error TS5097: quiet\n" ++
    "b.ts(9,9): error TS3: other\na.ts(03,4294967296): warning TS4: near\n").toList

/-- The last line that a word can count is still printed as what it is. -/
theorem Remapping.ofOutput_exact_far :
    let artifact : Artifact := ⟨⟨"/w/a.ts"⟩, "", 2⟩
    let findings := Finding.ofOutput ⟨"/w"⟩ farOutput
    let far : Finding := ⟨some ⟨"/w/a.ts"⟩, 4294967294, 0, 1, some 1, "far"⟩
    let shown : Diagnostic := ⟨⟨⟨4294967292, 0⟩, ⟨4294967292, 1⟩⟩, "far"⟩
    ofFindings artifact (fun _ _ => false) [5097] findings =
      ⟨[shown, ⟨⟨⟨0, 0⟩, ⟨0, 1⟩⟩, "near"⟩], ["Error in $type: tag\n/w/a.ts"]⟩ ∧
    (far ∈ findings ∧ ∃ line ∈ Text.lines farOutput, ∃ file place,
      far.IsReadFrom ⟨"/w"⟩ line file place ∧ far.Counts place) ∧
    CommandLine.diagnosticLine false "a.json" shown = .output "a.json:4294967293:1: error: far" := by
  intro artifact findings far shown
  have read : findings = [far, ⟨some ⟨"/w/a.ts"⟩, 1, 0, 1, some 2, "tag"⟩,
      ⟨some ⟨"/w/a.ts"⟩, 8, 8, 1, some 5097, "quiet"⟩, ⟨some ⟨"/w/b.ts"⟩, 8, 8, 1, some 3, "other"⟩,
      ⟨some ⟨"/w/a.ts"⟩, 2, 0, 1, some 4, "near"⟩] := by
    decide +kernel
  have remapped : ofFindings artifact (fun _ _ => false) [5097] findings =
      ⟨[shown, ⟨⟨⟨0, 0⟩, ⟨0, 1⟩⟩, "near"⟩], ["Error in $type: tag\n/w/a.ts"]⟩ := by
    rw [read]
    decide +kernel
  have listed : far ∈ findings := read ▸ List.mem_cons_self
  obtain ⟨-, -, counts, printed⟩ := ofOutput_exact ⟨"/w"⟩ farOutput artifact (fun _ _ => false) [5097]
  have published : shown ∈ (ofFindings artifact (fun _ _ => false) [5097] findings).diagnostics :=
    remapped ▸ List.mem_cons_self
  obtain ⟨-, line, -, line_text⟩ := printed shown published
  refine ⟨remapped, ⟨listed, counts far listed⟩, (line_text false "a.json").trans ?_⟩
  decide +kernel

end TypedJson
