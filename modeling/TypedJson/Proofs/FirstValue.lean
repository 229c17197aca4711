import TypedJson.Proofs.Phrase.Nesting
import TypedJson.Proofs.TypedReading

/-! # Reading the first value of a text

A typed reader of a text is given the first value of the text and never looks behind it. For a reader that accepts
arrays and objects only, `Accepts.ofText_eq_ok_iff` gives the texts that it accepts: those that begin with a phrase
whose value is accepted. So whatever stands behind this phrase is ignored (`Accepts.readsFirstValue`).
-/

namespace TypedJson

variable {α : Type} {expect : Node → Reads α} {form : Json → α → Prop} {gap : Gap} {phrase : Phrase}
  {rest text : List Char} {result : α}

/-- A value that is written between brackets or braces. -/
inductive Json.IsBracketed : Json → Prop
  | array (items : List Json) : IsBracketed (.array items)
  | object (members : List (String × Json)) : IsBracketed (.object members)

/-- The closing bracket or brace ends a phrase, whatever stands behind it. -/
theorem Json.IsBracketed.endsBefore (bracketed : phrase.value.IsBracketed) (rest : List Char) :
    phrase.EndsBefore rest := by
  cases phrase with
  | word text value written => cases written <;> cases bracketed
  | _ => trivial

/-- The texts that a typed reader accepts begin with a phrase whose value has the accepted form. -/
theorem Accepts.ofText_eq_ok_iff (accepts : Accepts expect form)
    (bracketed : ∀ value result, form value result → value.IsBracketed) :
    expect (Node.ofText text).1 = .ok result ↔ ∃ (gap : Gap) (phrase : Phrase) (rest : List Char),
      text = gap.text ++ (phrase.text ++ rest) ∧ phrase.value.nesting ≤ nestingLimit ∧
        form phrase.value result := by
  rw [accepts]
  constructor
  · rintro ⟨value, valued, formed⟩
    rcases reads : Node.ofText text with ⟨node, stop⟩
    rw [reads] at valued
    have shallow := Node.shallow_read nestingLimit (.ofText text)
    rw [← Node.ofText, reads] at shallow
    obtain ⟨next, -, gap, phrase, split, rfl⟩ := Node.readsPhrases_read nestingLimit reads valued
    exact ⟨gap, phrase, next.rest, by rw [← List.append_assoc, ← split]; rfl, shallow _ valued, formed⟩
  · rintro ⟨gap, phrase, rest, rfl, nested, formed⟩
    obtain ⟨node, stop, reads, valued⟩ := Node.readsNested_read nestingLimit gap phrase rest .start nested
      ((bracketed _ _ formed).endsBefore rest)
    rw [Node.ofText, Cursor.ofText, reads]
    exact ⟨_, valued, formed⟩

/-- A typed reader accepts a writing if the value that is written has the accepted form. -/
theorem Accepts.ofText_writing (accepts : Accepts expect form)
    (bracketed : ∀ value result, form value result → value.IsBracketed) (writing : Writing) :
    expect (Node.ofText writing.text).1 = .ok result ↔
      writing.root.value.nesting ≤ nestingLimit ∧ form writing.root.value result := by
  rw [accepts.ofText_eq_ok_iff bracketed]
  constructor
  · rintro ⟨gap, phrase, rest, same, nested, formed⟩
    rw [Writing.text, List.append_assoc] at same
    obtain ⟨same, -⟩ := Phrase.value_unique same (.of_stops writing.behind.stops)
      ((bracketed _ _ formed).endsBefore rest)
    rw [same]
    exact ⟨nested, formed⟩
  · rintro ⟨nested, formed⟩
    exact ⟨writing.before, writing.root, writing.behind.text, List.append_assoc .., nested, formed⟩

/-- A text that begins with an array or an object is read as one value if nothing but white space follows. -/
theorem Json.exists_ofText_iff_blank (bracketed : phrase.value.IsBracketed)
    (nested : phrase.value.nesting ≤ nestingLimit) :
    (∃ value, Json.ofText (gap.text ++ (phrase.text ++ rest)) = .ok value) ↔ ∀ c ∈ rest, isJsonBlank c = true := by
  constructor
  · rintro ⟨value, reads⟩
    obtain ⟨writing, same, -⟩ := Json.ofText_eq_ok_iff.mp reads
    rw [Writing.text, List.append_assoc] at same
    obtain ⟨-, rfl⟩ := Phrase.value_unique same (.of_stops writing.behind.stops) (bracketed.endsBefore rest)
    exact writing.behind.blank
  · intro blank
    have reads : Json.ofText (Writing.text ⟨gap, phrase, rest, blank⟩) = .ok _ := Writing.ofText_text nested
    rw [Writing.text, List.append_assoc] at reads
    exact ⟨_, reads⟩

/-! ## How deep accepted values are nested -/

/-- The values of a form are nested no deeper than given. -/
def NestedWithin (depth : ℕ) (form : Json → α → Prop) : Prop :=
  ∀ value result, form value result → value.nesting ≤ depth

theorem NestedWithin.mono {depth deeper : ℕ} (nested : NestedWithin depth form) (deep : depth ≤ deeper) :
    NestedWithin deeper form := fun value result formed => (nested value result formed).trans deep

namespace Slot

variable {σ : Type} {slots : List (Slot σ)} {seen : List String} {members : List (String × Json)}
  {items : List Json} {default record : σ} {depth : ℕ}

theorem Overlay.nesting_le (complete : Complete slots) (flat : ∀ slot ∈ slots, NestedWithin depth slot.form)
    (overlay : Overlay slots seen members default record) : Json.membersNesting members ≤ depth := by
  induction members generalizing seen default with
  | nil => exact Nat.zero_le depth
  | cons member members ih =>
    obtain ⟨-, slot, mem, -, content, formed, overlay⟩ := (overlay_cons_iff complete).mp overlay
    exact Nat.max_le.mpr ⟨flat slot mem _ content formed, ih overlay⟩

theorem Positional.nesting_le (flat : ∀ slot ∈ slots, NestedWithin depth slot.form)
    (positional : Positional slots items default record) : Json.itemsNesting items ≤ depth := by
  induction positional with
  | rest => exact Nat.zero_le depth
  | item formed _ ih =>
    obtain ⟨first, flat⟩ := List.forall_mem_cons.mp flat
    exact Nat.max_le.mpr ⟨first _ _ formed, ih flat⟩

/-- A record is nested one level deeper than its fields. -/
theorem nestedWithin_record (complete : Complete slots) (flat : ∀ slot ∈ slots, NestedWithin depth slot.form)
    (default : σ) : NestedWithin (depth + 1) fun value record =>
      (∃ members, value = .object members ∧ Overlay slots [] members default record) ∨
        ∃ items, value = .array items ∧ Positional slots items default record := by
  rintro _ record (⟨members, rfl, overlay⟩ | ⟨items, rfl, positional⟩)
  · exact Nat.succ_le_succ (overlay.nesting_le complete flat)
  · exact Nat.succ_le_succ (positional.nesting_le flat)

end Slot

theorem NamesVariant.nestedWithin (variants : List (String × α)) : NestedWithin 1 (NamesVariant variants) := by
  rintro _ variant (_ | _)
  · exact Nat.zero_le 1
  · exact Nat.le_refl 1

/-! ## Front and rest -/

/-- Of a text, a reader reads the phrase at its front, as it reads this phrase by itself, and takes no notice of what
stands behind it: only if that is white space, the text as a whole is one value. -/
structure ReadsFirstValue (read : List Char → Reads α) (text : List Char) : Prop where
  front : ∀ result, read text = .ok result ↔ ∃ (gap : Gap) (phrase : Phrase) (rest : List Char),
    text = gap.text ++ (phrase.text ++ rest) ∧ read phrase.text = .ok result
  whole : ∀ (gap : Gap) (phrase : Phrase) (rest : List Char) (result : α),
    text = gap.text ++ (phrase.text ++ rest) → read phrase.text = .ok result →
      ((∃ value, Json.ofText text = .ok value) ↔ ∀ c ∈ rest, isJsonBlank c = true)

theorem Accepts.readsFirstValue (accepts : Accepts expect form)
    (bracketed : ∀ value result, form value result → value.IsBracketed) (text : List Char) :
    ReadsFirstValue (fun text => expect (Node.ofText text).1) text := by
  have alone (phrase : Phrase) (result : α) : expect (Node.ofText phrase.text).1 = .ok result ↔
      phrase.value.nesting ≤ nestingLimit ∧ form phrase.value result := by
    have written : phrase.text = Writing.text ⟨.none, phrase, .none⟩ := by
      rw [Writing.text, Gap.none, List.nil_append, List.append_nil]
    rw [written]
    exact accepts.ofText_writing bracketed ⟨.none, phrase, .none⟩
  constructor
  · intro result
    simp only [alone, accepts.ofText_eq_ok_iff bracketed]
  · rintro gap phrase rest result rfl reads
    obtain ⟨nested, formed⟩ := (alone phrase result).mp reads
    exact Json.exists_ofText_iff_blank (bracketed _ _ formed) nested

end TypedJson
