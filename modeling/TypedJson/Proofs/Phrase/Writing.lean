import TypedJson.Json.Write
import TypedJson.Proofs.Phrase.Basic
import Mathlib.Data.List.Forall2

/-! # Writing values

Writings of items make up a writing of their array, and writings of members one of their object. `Writing.Writes`
says that the text of a writing is the one that a value is written as; it goes from the parts to the whole.
-/

namespace TypedJson

namespace Phrase

/-- Items that are written one behind the other. -/
def Items.ofWritings : Writing → List Writing → Items
  | writing, [] => .last writing.before writing.root writing.behind
  | writing, next :: rest => .more writing.before writing.root writing.behind (ofWritings next rest)

/-- The array of items that are written one behind the other. -/
def ofItems : List Writing → Phrase
  | [] => .emptyArray .none
  | writing :: rest => .array (Items.ofWritings writing rest)

/-- Members that are written one behind the other, their names as they are written by themselves. -/
def Members.ofWritings : String × Writing → List (String × Writing) → Members
  | (name, writing), [] => .last { Label.ofString name with start := writing.before } writing.root writing.behind
  | (name, writing), next :: rest =>
    .more { Label.ofString name with start := writing.before } writing.root writing.behind (ofWritings next rest)

/-- The object of members that are written one behind the other. -/
def ofMembers : List (String × Writing) → Phrase
  | [] => .emptyObject .none
  | member :: rest => .object (Members.ofWritings member rest)

theorem Items.values_ofWritings (writing : Writing) (rest : List Writing) :
    (Items.ofWritings writing rest).values = (writing :: rest).map (·.root.value) := by
  induction rest generalizing writing with
  | nil => rfl
  | cons next rest ih =>
    rw [Items.ofWritings, Items.values, ih]
    rfl

theorem value_ofItems (writings : List Writing) : (ofItems writings).value = .array (writings.map (·.root.value)) := by
  cases writings with
  | nil => rfl
  | cons writing rest => rw [ofItems, value, Items.values_ofWritings]

theorem Members.values_ofWritings (member : String × Writing) (rest : List (String × Writing)) :
    (Members.ofWritings member rest).values = (member :: rest).map fun (name, writing) => (name, writing.root.value) := by
  induction rest generalizing member with
  | nil => rfl
  | cons next rest ih =>
    rw [Members.ofWritings, Members.values, ih]
    rfl

theorem value_ofMembers (members : List (String × Writing)) :
    (ofMembers members).value = .object (members.map fun (name, writing) => (name, writing.root.value)) := by
  cases members with
  | nil => rfl
  | cons member rest => rw [ofMembers, value, Members.values_ofWritings]

end Phrase

/-- The text of a writing is what a value is written as. -/
def Writing.Writes (writing : Writing) (value : Json) : Prop := writing.text = value.write

theorem Writing.Writes.eq {writing : Writing} {value : Json} (writes : writing.Writes value) :
    writing.text = value.write := writes

/-- A member has the name of another one, and the text that its value is written as. -/
def Writing.WritesMember (member : String × Writing) (written : String × Json) : Prop :=
  member.1 = written.1 ∧ member.2.Writes written.2

theorem Writing.Writes.member {writing : Writing} {value : Json} (writes : writing.Writes value) (name : String) :
    WritesMember (name, writing) (name, value) := ⟨rfl, writes⟩

namespace Phrase

theorem Items.text_ofWritings {writing : Writing} {rest : List Writing} {value : Json} {values : List Json}
    (first : writing.Writes value) (others : List.Forall₂ Writing.Writes rest values) :
    (Items.ofWritings writing rest).text = Json.writeItems (value :: values) ++ [']'] := by
  induction others generalizing writing value with
  | nil => exact congrArg (· ++ [']']) first
  | cons next _ ih =>
    calc (Items.ofWritings writing (_ :: _)).text = writing.text ++ ',' :: (Items.ofWritings _ _).text := rfl
      _ = value.write ++ ',' :: (Json.writeItems (_ :: _) ++ [']']) := by rw [first, ih next]
      _ = Json.writeItems (value :: _ :: _) ++ [']'] := by simp only [Json.writeItems, List.append_assoc, List.cons_append]

theorem text_ofItems {writings : List Writing} {values : List Json}
    (written : List.Forall₂ Writing.Writes writings values) : (ofItems writings).text = (Json.array values).write := by
  cases written with
  | nil => rfl
  | cons first others =>
    rw [ofItems, text, Items.text_ofWritings first others]
    rfl

/-- The text of a member, from its name on. -/
theorem text_member (name : String) (writing : Writing) (rest : List Char) :
    ({ Label.ofString name with start := writing.before } : Label).text ++ writing.root.text ++ writing.behind.text ++
      rest = Quoted.encode name.toList ++ ':' :: (writing.text ++ rest) := by
  have label : ({ Label.ofString name with start := writing.before } : Label).text =
      Quoted.encode name.toList ++ ':' :: writing.before.text := by
    simp only [Label.text, Label.ofString, Gap.none, List.nil_append, List.append_nil]
    rfl
  rw [label, Writing.text]
  simp only [List.append_assoc, List.cons_append]

theorem Members.text_ofWritings {member : String × Writing} {rest : List (String × Writing)} {written : String × Json}
    {values : List (String × Json)} (first : Writing.WritesMember member written)
    (others : List.Forall₂ Writing.WritesMember rest values) :
    (Members.ofWritings member rest).text = Json.writeMembers (written :: values) ++ ['\x7d'] := by
  induction others generalizing member written with
  | nil =>
    obtain ⟨name, writing⟩ := member
    obtain ⟨_, value⟩ := written
    obtain ⟨rfl, first⟩ := first
    calc (Members.ofWritings (name, writing) []).text
        = Quoted.encode name.toList ++ ':' :: (writing.text ++ ['\x7d']) := text_member name writing _
      _ = Json.writeMembers [(name, value)] ++ ['\x7d'] := by
        simp only [Json.writeMembers, ← first.eq, List.append_assoc, List.cons_append]
  | @cons next _ rest _ same _ ih =>
    obtain ⟨name, writing⟩ := member
    obtain ⟨_, value⟩ := written
    obtain ⟨rfl, first⟩ := first
    calc (Members.ofWritings (name, writing) (next :: rest)).text
        = Quoted.encode name.toList ++ ':' :: (writing.text ++ ',' :: (Members.ofWritings next rest).text) :=
          text_member name writing _
      _ = Json.writeMembers ((name, value) :: _ :: _) ++ ['\x7d'] := by
        rw [ih same]
        simp only [Json.writeMembers, ← first.eq, List.append_assoc, List.cons_append]

theorem text_ofMembers {members : List (String × Writing)} {values : List (String × Json)}
    (written : List.Forall₂ Writing.WritesMember members values) :
    (ofMembers members).text = (Json.object values).write := by
  cases written with
  | nil => rfl
  | cons first others =>
    rw [ofMembers, text, Members.text_ofWritings first others]
    rfl

end Phrase

namespace Writing

/-- A phrase with no white space around it. -/
def ofPhrase (phrase : Phrase) : Writing := ⟨.none, phrase, .none⟩

theorem text_ofPhrase (phrase : Phrase) : (ofPhrase phrase).text = phrase.text := by
  simp [text, ofPhrase, Gap.none]

/-- A string as it is written by itself. -/
def ofString (text : String) : Writing := ofPhrase (.string (.ofString text))

theorem writes_ofString (text : String) : (ofString text).Writes (.string text) := text_ofPhrase _

/-- A truth value. -/
def ofBool : Bool → Writing
  | true => ofPhrase (.word _ _ .true)
  | false => ofPhrase (.word _ _ .false)

theorem writes_ofBool (b : Bool) : (ofBool b).Writes (.bool b) := by
  cases b <;> exact text_ofPhrase _

theorem value_ofBool (b : Bool) : (ofBool b).root.value = .bool b := by
  cases b <;> rfl

/-- Writings of items make up a writing of their array. -/
theorem writes_ofItems {writings : List Writing} {values : List Json}
    (written : List.Forall₂ Writes writings values) : (ofPhrase (.ofItems writings)).Writes (.array values) :=
  (text_ofPhrase _).trans (Phrase.text_ofItems written)

/-- Writings of members make up a writing of their object. -/
theorem writes_ofMembers {members : List (String × Writing)} {values : List (String × Json)}
    (written : List.Forall₂ WritesMember members values) : (ofPhrase (.ofMembers members)).Writes (.object values) :=
  (text_ofPhrase _).trans (Phrase.text_ofMembers written)

end Writing

end TypedJson
