import TypedJson.Proofs.Overlay
import TypedJson.Proofs.TypeReading

/-! # Modules and configurations are read from the front of their texts

Neither reader looks behind the value at the front of a text. So a text is accepted whatever follows this value,
and only if nothing but white space does, the text as a whole is well-formed.
-/

namespace TypedJson

/-- Texts of type modules and of configurations are read up to the end of their first value. -/
theorem readsFirstValue_of_files (text : List Char) :
    ReadsFirstValue TypeModule.ofText text ∧ ReadsFirstValue Configuration.ofText text := by
  constructor
  · refine TypeModule.accepts_ofNode.readsFirstValue ?_ text
    rintro _ types ⟨members, rfl, -⟩
    exact .object members
  · exact Configuration.accepts_ofNode.readsFirstValue (fun _ _ => Configuration.Given.isBracketed) text

end TypedJson
