import TypedJson.Proofs.Position
import TypedJson.Proofs.Script
import TypedJson.Proofs.TypeTag

/-! # The header of an artifact

The values of a tag are put into the header as they are. The check of a tag keeps quotes and line ends out
of the source, so the header has the lines that it is made of, and the quotation of the source closes where
the header closes it, if it closes at all. A backslash in a source passes the check, and so do the separators
of lines and paragraphs; to a script they are more than characters of a name.
-/

namespace TypedJson.Artifact

variable {tag : TypeTag} {text : List Char}

/-- No character of an identifier ends a line. -/
theorem isLineEnd_of_identifier {name : List Char} (sound : TypeTag.isIdentifier name = true) {c : Char}
    (member : c ∈ name) : Script.isLineEnd c = false := by
  have plain : (TypeTag.isIdentifierStart c || c.isDigit) = true :=
    Bool.or_eq_true_iff.mpr (TypeTag.mem_identifier sound member)
  rw [Bool.eq_false_iff]
  intro ends
  simp only [Script.isLineEnd, Bool.or_eq_true, decide_eq_true_eq] at ends
  rcases ends with ((rfl | rfl) | rfl) | rfl <;> revert plain <;> decide

/-- No value of a tag puts a line feed into the header. -/
theorem newline_not_mem_header (tagged : TypeTag.ofText? text = some tag) :
    ∀ line ∈ header tag, '\n' ∉ line.toList := by
  obtain ⟨source, name⟩ := TypeTag.check_of_ofText? tagged
  have unnamed : '\n' ∉ tag.name.toList := fun member => absurd (isLineEnd_of_identifier name member) (by decide)
  have unsourced : '\n' ∉ tag.source.toList := fun member => (TypeTag.ne_of_mem_source source member).2.1 rfl
  simp [header, unnamed, unsourced]

theorem toList_headerText (tag : TypeTag) :
    (headerText tag).toList = (header tag).flatMap fun line => line.toList ++ ['\n'] := by
  simp [headerText, String.toList_join, List.flatMap_map]

/-- The quotation of the source is the end of the first header line. -/
theorem exists_import (tag : TypeTag) : ∃ line, (header tag).head? = some line ∧
    line.toList = "import \x7b ".toList ++ tag.name.toList ++ " \x7d from \"".toList ++
      (tag.source.toList ++ ['"', ';']) := by
  refine ⟨_, rfl, ?_⟩
  rw [String.toList_append, String.toList_append, String.toList_append, String.toList_append,
    List.append_assoc _ tag.source.toList]
  rfl

/-- In a script, the header of a tag begins with one line if its source has no separators of lines or
paragraphs, and this line imports the name of the tag from a module whose name is the source if the source
has no backslash, and only then. -/
theorem header_reads_as_tag_iff (tagged : TypeTag.ofText? text = some tag) :
    ∃ line, (header tag).head? = some line ∧ TypeTag.isIdentifier tag.name.toList = true ∧
      (Script.lineCount line.toList = 1 ↔ '\u2028' ∉ tag.source.toList ∧ '\u2029' ∉ tag.source.toList) ∧
      (Script.Imports line.toList tag.name.toList (Script.units tag.source.toList) ↔
        '\\' ∉ tag.source.toList) := by
  obtain ⟨source, name⟩ := TypeTag.check_of_ofText? tagged
  obtain ⟨line, first, written⟩ := exists_import tag
  refine ⟨line, first, name, ?_, ?_⟩
  · rw [Script.lineCount_eq_one_iff, written]
    constructor
    · intro inLine
      constructor
      all_goals
        intro member
        exact absurd (inLine _ (List.mem_append_right _ (List.mem_append_left _ member))) (by decide)
    · rintro ⟨unlined, unparted⟩ c member
      simp only [List.mem_append] at member
      rcases member with ((member | member) | member) | member | member
      · exact Script.isLineEnd_of_all (by decide) member
      · exact isLineEnd_of_identifier name member
      · exact Script.isLineEnd_of_all (by decide) member
      · obtain ⟨-, feed, turn⟩ := TypeTag.ne_of_mem_source source member
        have line : c ≠ '\u2028' := fun same => unlined (same ▸ member)
        have paragraph : c ≠ '\u2029' := fun same => unparted (same ▸ member)
        simp [Script.isLineEnd, feed, turn, line, paragraph]
      · exact Script.isLineEnd_of_all (by decide) member
  · rw [← Script.reads_itself_iff (fun c => TypeTag.ne_of_mem_source source) [';']]
    constructor
    · rintro ⟨literal, same, reads⟩
      obtain rfl := List.append_cancel_left (written.symm.trans same)
      exact reads
    · intro reads
      exact ⟨_, written, reads⟩

/-- A document whose source has a backslash, which is escaped there. -/
def backslashText : List Char :=
  "\x7b\"$type\":\x7b\"$from\":\".\\\\model\",\"$import\":\"T\"\x7d\x7d".toList

/-- The header begins with one line, but it imports from another module than the document says. -/
theorem header_reads_as_tag_iff_backslash :
    TypeTag.ofText? backslashText = some ⟨".\\model", "T"⟩ ∧
      ∃ line, (header ⟨".\\model", "T"⟩).head? = some line ∧ Script.lineCount line.toList = 1 ∧
        ¬ Script.Imports line.toList ['T'] (Script.units ".\\model".toList) := by
  have tagged : TypeTag.ofText? backslashText = some ⟨".\\model", "T"⟩ := by decide +kernel
  obtain ⟨line, first, -, lines, imports⟩ := header_reads_as_tag_iff tagged
  exact ⟨tagged, line, first, lines.mpr (by decide), fun read => imports.mp read (by decide)⟩

end TypedJson.Artifact
