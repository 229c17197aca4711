import TypedJson.Artifact
import Mathlib.Data.Option.Basic

/-! # What the values of a tag can be

A tag that was found in a document has passed the check of its values, however they were escaped there.
So neither value has a quote or ends a line.
-/

namespace TypedJson.TypeTag

variable {tag found : TypeTag} {text : List Char}

theorem check_eq_some (checked : check tag = some found) :
    isSource found.source.toList = true ∧ isIdentifier found.name.toList = true := by
  unfold check at checked
  split at checked
  case isTrue passed =>
    cases checked
    exact Bool.and_eq_true_iff.mp passed
  case isFalse => cases checked

/-- The values of a tag in a document have passed the check. -/
theorem check_of_ofText? (tagged : ofText? text = some tag) :
    isSource tag.source.toList = true ∧ isIdentifier tag.name.toList = true := by
  obtain ⟨⟨first, second⟩, -, tagged⟩ := Option.bind_eq_some_iff.mp tagged
  simp only at tagged
  split at tagged
  case isTrue => cases tagged
  case isFalse =>
    obtain ⟨firstValue, -, tagged⟩ := Option.bind_eq_some_iff.mp tagged
    obtain ⟨secondValue, -, tagged⟩ := Option.bind_eq_some_iff.mp tagged
    split at tagged <;> exact check_eq_some tagged

/-- No character of a source closes a quotation or ends a line. -/
theorem ne_of_mem_source (sound : isSource text = true) {c : Char} (member : c ∈ text) :
    c ≠ '"' ∧ c ≠ '\n' ∧ c ≠ '\r' := by
  simp only [isSource, Bool.and_eq_true, List.all_eq_true] at sound
  simpa [and_assoc] using sound.2 c member

/-- The characters of an identifier are letters, digits, underscores and dollar signs. -/
theorem mem_identifier (sound : isIdentifier text = true) {c : Char} (member : c ∈ text) :
    isIdentifierStart c = true ∨ c.isDigit = true := by
  cases text with
  | nil => cases member
  | cons first rest =>
    simp only [isIdentifier, Bool.and_eq_true, List.all_eq_true, Bool.or_eq_true] at sound
    rcases List.mem_cons.mp member with rfl | later
    · exact .inl sound.1
    · exact sound.2 c later

end TypedJson.TypeTag
